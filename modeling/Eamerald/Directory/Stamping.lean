import Eamerald.Concurrency.Optimistic
import Eamerald.Directory.OperationProperties
import Eamerald.Directory.Steps
import Eamerald.Directory.Traversals

/-! What one step does to the rows. A step that sets a row finds it there, writes it with the
time of the step, or fails and leaves the store as it is. All other steps only remove rows. -/

set_option autoImplicit false

namespace Eamerald.Directory

open Foundation Store

section Tables

variable {μ σ R I Δ κ : Type} [DecidableEq κ] {backend : Backend μ σ} {kind : RowKind μ R I}
  {scan : TxOp μ (Iterator R)} {sound : σ → Prop} {data : σ → Δ} {part : Part Δ κ R}

def RowKind.stamped (kind : RowKind μ R I) (now : Timestamp) (row : R) (old : Option R) : R :=
  kind.restamp row (old.elim (some now) kind.createdAt) (some now) (kind.hash row)

inductive Table.Stores (table : Table backend kind scan sound data part) (now : Timestamp) (row : R)
    (state : σ) {α : Type} : Except Err α × σ → Prop where
  | refused (error : Err) : Stores table now row state (.error error, state)
  | present {old : R} {value : α} (found : part.get (data state) (table.key (kind.ident row)) = some old)
      (tagged : kind.Tagged row old) : Stores table now row state (.ok value, state)
  | written {value : α} {after : σ} {old : Option R}
      (found : part.get (data state) (table.key (kind.ident row)) = old)
      (untagged : ∀ stored ∈ old, ¬ kind.Tagged row stored) (kept : sound after)
      (changed : data after = part.set (data state)
        (Function.update (part.get (data state)) (table.key (kind.ident row))
          (some (kind.stamped now row old)))) :
      Stores table now row state (.ok value, after)

namespace Table

variable (table : Table backend kind scan sound data part) {state : σ} {now : Timestamp} {row : R}

def current (kind : RowKind μ R I) (now : Timestamp) (row : R) (old : Option R) : R :=
  kind.restamp row (old.elim (some now) kind.createdAt) (some now)
    (old.elim [] fun stored => if kind.etag stored ≠ [] then kind.etag stored else kind.etag row)

theorem run_updateMetadata (now : Timestamp) (row : R) (holds : sound state) :
    (kind.updateMetadata now row).run backend state =
      (.ok (current kind now row (part.get (data state) (table.key (kind.ident row)))), state) := by
  rw [RowKind.run_updateMetadata, table.read holds]
  cases part.get (data state) (table.key (kind.ident row)) with
  | none => simp only [Option.elim, RowKind.updated, table.missing_isNotFound, ↓reduceIte, current]
  | some old => rfl

theorem etag_current_eq_hash (hashed : kind.hash row ≠ []) {old : Option R} :
    kind.hash row = kind.etag (current kind now row old) ↔ ∃ stored ∈ old, kind.Tagged row stored := by
  cases old with
  | none => simp [current, hashed]
  | some stored =>
      simp only [current, RowKind.etag_restamp, Option.elim, Option.mem_some_iff, exists_eq_left',
        RowKind.Tagged]
      by_cases untagged : kind.etag stored = []
      · simp only [untagged, ne_eq, not_true_eq_false, ↓reduceIte, true_and, hashed.symm, false_or]
        exact eq_comm
      · simp only [untagged, ne_eq, not_false_eq_true, ↓reduceIte, false_and, or_false]
        exact eq_comm

section Written

variable (stamps : ∀ row created updated tag, kind.createdAt (kind.restamp row created updated tag) = created)
  (now : Timestamp)

include stamps

theorem tagged_current (row : R) (old : Option R) :
    kind.tagged (current kind now row old) (kind.hash row) = kind.stamped now row old := by
  simp [RowKind.tagged, current, RowKind.stamped, stamps]

theorem exec_write (holds : sound state) {old : Option R}
    (found : part.get (data state) (table.key (kind.ident row)) = old)
    (untagged : ∀ stored ∈ old, ¬ kind.Tagged row stored) : table.Stores now row state
      (backend.exec (kind.write (kind.tagged (current kind now row old) (kind.hash row))) state) := by
  rw [tagged_current stamps]
  have ident : kind.ident (kind.stamped now row old) = kind.ident row := kind.ident_restamp ..
  by_cases fits : table.fits (kind.ident row)
  · obtain ⟨after, ran, kept, changed⟩ := table.write holds (ident.symm ▸ fits)
    rw [ran]
    rw [ident] at changed
    exact .written found untagged kept changed
  · obtain ⟨error, ran⟩ := table.refuse holds (ident.symm ▸ fits)
    rw [ran]
    exact .refused error

theorem stores_store (holds : sound state) (hashed : kind.hash row ≠ []) :
    table.Stores now row state ((kind.store now row).run backend state) := by
  simp only [RowKind.store, Program.bind_eq, Program.run_bind, table.run_updateMetadata now row holds]
  split
  · rename_i same
    obtain ⟨old, found, tagged⟩ := (etag_current_eq_hash hashed).mp same
    exact .present found tagged
  · rename_i differs
    have written := table.exec_write stamps now holds rfl fun stored found tagged =>
      differs ((etag_current_eq_hash hashed).mpr ⟨stored, found, tagged⟩)
    rw [Program.run_bind, RowKind.run_orElseReport]
    revert written
    generalize backend.exec _ state = answer
    intro written
    cases written with
    | refused error => exact .refused _
    | present found tagged => exact .present found tagged
    | written found untagged kept changed => exact .written found untagged kept changed

theorem stores_optimisticSet (mismatch : R → Err) (ifMatch : GoString)
    (holds : sound state) (hashed : kind.hash row ≠ []) : table.Stores now row state
      ((Concurrency.optimisticSet (kind.updateMetadata now row) kind.etag mismatch
        (fun updated => kind.write (kind.tagged updated (kind.hash row))) (kind.hash row) ifMatch).run
          backend state) := by
  simp only [Concurrency.optimisticSet, Program.bind_eq, Program.run_bind,
    table.run_updateMetadata now row holds]
  split
  · exact .refused _
  · split
    · rename_i same
      obtain ⟨old, found, tagged⟩ := (etag_current_eq_hash hashed).mp same
      exact .present found tagged
    · rename_i differs
      exact table.exec_write stamps now holds rfl fun stored found tagged =>
        differs ((etag_current_eq_hash hashed).mpr ⟨stored, found, tagged⟩)

end Written

end Table

end Tables

section Entries

namespace Entry

def ident : Entry → Concurrency.RowKey
  | .object message => .object message.ident
  | .relation message => .relation message.ident

def createdAt : Entry → Option Timestamp
  | .object message => message.createdAt
  | .relation message => message.createdAt

def updatedAt : Entry → Option Timestamp
  | .object message => message.updatedAt
  | .relation message => message.updatedAt

/-- The key of the row tells what it is the key of. -/
def Clear : Entry → Prop
  | .object message => Bolt.PlainName message.type
  | .relation message => Bolt.Storable message.ident

theorem ident_eq_of_bare {entry other : Entry} (same : entry.bare = other.bare) :
    entry.ident = other.ident := by
  cases entry with
  | object message =>
      cases other with
      | object other =>
          have idents := congrArg Object.ident (Entry.object.inj same)
          exact congrArg Concurrency.RowKey.object idents
      | relation other => cases same
  | relation message =>
      cases other with
      | object other => cases same
      | relation other =>
          have idents := congrArg Relation.ident (Entry.relation.inj same)
          exact congrArg Concurrency.RowKey.relation idents

end Entry

variable {μ σ κ ι ν : Type} [DecidableEq κ] [DecidableEq ι] {library : Library μ}
  {backend : Backend μ σ}

inductive Layout.Stores (layout : Layout library backend κ ι ν) (now : Timestamp) (entry : Entry)
    (state : σ) {α : Type} : Except Err α × σ → Prop where
  | refused (error : Err) : Stores layout now entry state (.error error, state)
  | present {old : Entry} {value : α} (found : layout.entry state (layout.place entry) = some old)
      (tagged : entry.Tagged library old) : Stores layout now entry state (.ok value, state)
  | written {value : α} {after : σ} {old : Option Entry} {new : Entry}
      (found : layout.entry state (layout.place entry) = old)
      (untagged : ∀ stored ∈ old, ¬ entry.Tagged library stored) (bare : new.bare = entry.bare)
      (tag : new.etag = entry.hash library) (updated : new.updatedAt = some now)
      (created : new.createdAt = old.elim (some now) Entry.createdAt) (kept : layout.sound after)
      (changed : layout.entry after =
        Function.update (layout.entry state) (layout.place entry) (some new)) :
      Stores layout now entry state (.ok value, after)

namespace Layout

variable {layout : Layout library backend κ ι ν} {now : Timestamp} {state : σ} {α β : Type}
  {ran : Except Err α × σ}

theorem stores_of_table {R I π : Type} [DecidableEq π] {kind : RowKind μ R I} {scan : TxOp μ (Iterator R)}
    {part : Part (Data κ ι ν) π R} (table : Table backend kind scan layout.sound layout.data part)
    {wrap : R → Entry} {message : R} (here : layout.entry state (layout.place (wrap message)) =
      (part.get (layout.data state) (table.key (kind.ident message))).map wrap)
    (sets : ∀ data row, (part.set data (Function.update (part.get data) (table.key (kind.ident message))
      (some row))).entry = Function.update data.entry (layout.place (wrap message)) (some (wrap row)))
    (tags : ∀ old, (wrap message).Tagged library (wrap old) ↔ kind.Tagged message old)
    (stamps : ∀ old, (wrap (kind.stamped now message old)).bare = (wrap message).bare ∧
      (wrap (kind.stamped now message old)).etag = (wrap message).hash library ∧
      (wrap (kind.stamped now message old)).updatedAt = some now ∧
      (wrap (kind.stamped now message old)).createdAt = (old.map wrap).elim (some now) Entry.createdAt) (stores : table.Stores now message state ran) :
    layout.Stores now (wrap message) state ran := by
  cases stores with
  | refused error => exact .refused error
  | present found tagged => exact .present (here.trans (congrArg _ found)) ((tags _).mpr tagged)
  | @written _ after old found untagged kept changed =>
      obtain ⟨bare, tag, updated, created⟩ := stamps old
      refine .written (here.trans (congrArg _ found)) ?_ bare tag updated created kept
        ((congrArg Data.entry changed).trans (sets _ _))
      intro stored there
      obtain ⟨row, member, rfl⟩ := Option.map_eq_some_iff.mp there
      exact fun tagged => untagged row member ((tags row).mp tagged)

theorem stores_object {message : Object} (stores : layout.objects.Stores now message state ran) :
    layout.Stores now (.object message) state ran := by
  refine stores_of_table layout.objects rfl (fun _ _ => entry_set_objects _ _ _) (fun _ => Iff.rfl)
    (fun old => ⟨rfl, rfl, rfl, ?_⟩) stores
  cases old <;> rfl

theorem stores_relation {message : Relation} (stores : layout.relations.Stores now message state ran) :
    layout.Stores now (.relation message) state ran := by
  refine stores_of_table layout.relations rfl (fun _ _ => entry_set_relations _ _ _) (fun _ => Iff.rfl)
    (fun old => ⟨rfl, rfl, rfl, ?_⟩) stores
  cases old <;> rfl

variable {entry : Entry}

theorem Stores.forget {program : Tx μ α} (stores : layout.Stores now entry state (program.run backend state)) :
    layout.Stores now entry state ((program.bind fun _ => .done (.ok PUnit.unit)).run backend state) := by
  rw [Program.run_bind]
  revert stores
  generalize program.run backend state = ran
  intro stores
  cases stores with
  | refused error => exact .refused error
  | present found tagged => exact .present found tagged
  | written found untagged bare tag updated created kept changed =>
      exact .written found untagged bare tag updated created kept changed

end Layout

end Entries

section Sets

variable {μ σ κ ι ν : Type} [DecidableEq κ] [DecidableEq ι] {library : Library μ}
  {backend : Backend μ σ} (layout : Layout library backend κ ι ν) {state : σ}

section Stored

variable (hashed : ∀ entry : Entry, entry.hash library ≠ []) (sound : layout.sound state) (now : Timestamp)

include hashed sound

theorem Layout.stores_storeObject (object : Object) :
    layout.Stores now (.object object) state ((storeObject library now object).run backend state) := by
  rw [storeObject_eq]
  exact stores_object (layout.objects.stores_store (fun _ _ _ _ => rfl) now sound (hashed (.object object)))

theorem Layout.stores_storeRelation (relation : Relation) : layout.Stores now (.relation relation) state
      ((storeRelation library now relation).run backend state) := by
  rw [storeRelation_eq]
  exact stores_relation
    (layout.relations.stores_store (fun _ _ _ _ => rfl) now sound (hashed (.relation relation)))

theorem Layout.stores_setObjectTx (ifMatch : GoString) (object : Object) :
    layout.Stores now (.object object) state
      ((setObjectTx (library.hashObject object) ifMatch now object).run backend state) := by
  rw [Concurrency.setObjectTx_eq, updateMetadataObject_eq library]
  exact stores_object (layout.objects.stores_optimisticSet (fun _ _ _ _ => rfl) now objectMismatch ifMatch
    sound (hashed (.object object)))

theorem Layout.stores_setRelationTx (ifMatch : GoString) (relation : Relation) :
    layout.Stores now (.relation relation) state
      ((setRelationTx (library.hashRelation relation.ident) ifMatch now relation).run backend state) := by
  rw [Concurrency.setRelationTx_eq, updateMetadataRelation_eq library]
  exact stores_relation (layout.relations.stores_optimisticSet (fun _ _ _ _ => rfl) now relationMismatch
    ifMatch sound (hashed (.relation relation)))

end Stored

/-- The batches are taken apart. -/
def Step.Single : Step μ → Prop
  | .transaction (.importStream _ _) | .transaction (.subscriber _) => False
  | _ => True

def Step.BarFree : Step μ → Prop
  | .transaction operation => operation.BarFree
  | .request received => BarFreeMessage received.request.message
  | .row applied => BarFreeRow applied.row

theorem Operation.BarFree.steps {operation : Operation μ} (free : operation.BarFree) :
    ∀ step ∈ operation.steps, step.Single ∧ step.BarFree := by
  cases operation with
  | importStream requests ending =>
      have each : ∀ step ∈ requests.map Step.request, step.Single ∧ step.BarFree := by
        intro step member
        obtain ⟨received, there, rfl⟩ := List.mem_map.mp member
        exact ⟨trivial, free received there⟩
      cases ending with
      | done => exact each
      | eof sent =>
          cases sent with
          | ok _ => exact each
          | error error =>
              intro step member
              cases member
  | subscriber rows =>
      intro step member
      obtain ⟨applied, there, rfl⟩ := List.mem_map.mp member
      exact ⟨trivial, free applied there⟩
  | _ =>
      intro step member
      cases List.mem_singleton.mp member
      exact ⟨trivial, free⟩

/-- The validators let rows through only if their keys are clear. -/
structure ClearRows (library : Library μ) : Prop where
  objects : PlainObjects library
  relations : PlainRelations library

/-- A set fails without effect, or its row is clear and stored. -/
def Layout.Settles (now : Timestamp) (entry : Entry) (state : σ) (ran : Except Err PUnit × σ) : Prop :=
  (∃ error, ran = (.error error, state)) ∨ entry.Clear ∧ layout.Stores now entry state ran

section Settling

variable {layout} {now : Timestamp} {entry : Entry}

theorem Layout.settles_validated {α : Type} {validated : Except Err α} {body : α → Tx μ PUnit}
    (stores : ∀ value, validated = .ok value →
      entry.Clear ∧ layout.Stores now entry state ((body value).run backend state)) :
    layout.Settles now entry state ((Program.done validated >>= body).run backend state) := by
  cases validated with
  | error error => exact .inl ⟨error, rfl⟩
  | ok value => exact .inr (stores value rfl)

theorem Layout.Settles.commit {program : Tx μ PUnit}
    (settles : layout.Settles now entry state (program.run backend state)) :
    layout.Settles now entry state (update backend program state) := by
  rw [update, Program.commit]
  revert settles
  generalize program.run backend state = ran
  rintro (⟨error, rfl⟩ | ⟨clear, stores⟩)
  · exact .inl ⟨error, rfl⟩
  · cases stores with
    | refused error => exact .inl ⟨error, rfl⟩
    | present found tagged => exact .inr ⟨clear, .present found tagged⟩
    | written found untagged bare tag updated created kept changed =>
        exact .inr ⟨clear, .written found untagged bare tag updated created kept changed⟩

variable (clear : ClearRows library) (hashed : ∀ entry : Entry, entry.hash library ≠ [])
  (sound : layout.sound state)

include clear hashed sound

theorem Layout.settles_setObject (model : μ) (ifMatch : GoString) (now : Timestamp) (object : Object) :
    layout.Settles now (.object object) state
      (update backend (Operation.program library (.setObject model ifMatch now object)) state) := by
  apply Layout.Settles.commit
  rw [Operation.program, setObject, Program.bind_eq, Program.bind_eq, Program.bind_assoc]
  apply Layout.settles_validated
  intro etag passed
  obtain ⟨_, valid, rest⟩ := except_bind_eq_ok.mp passed
  obtain ⟨_, _, same⟩ := except_bind_eq_ok.mp rest
  cases same
  exact ⟨clear.objects.setRequest object valid, (layout.stores_setObjectTx hashed sound now ifMatch object).forget⟩

theorem Layout.settles_setRelation (model : μ) (ifMatch : GoString) (now : Timestamp) {relation : Relation}
    (free : barFree relation.objectId ∧ barFree relation.subjectId) :
    layout.Settles now (.relation relation) state
      (update backend (Operation.program library (.setRelation model ifMatch now relation)) state) := by
  apply Layout.Settles.commit
  rw [Operation.program, setRelation, Program.bind_eq, Program.bind_eq, Program.bind_assoc]
  apply Layout.settles_validated
  intro etag passed
  obtain ⟨_, valid, rest⟩ := except_bind_eq_ok.mp passed
  obtain ⟨_, _, same⟩ := except_bind_eq_ok.mp rest
  cases same
  exact ⟨⟨clear.relations.setRequest relation valid, free.1, free.2⟩,
    (layout.stores_setRelationTx hashed sound now ifMatch relation).forget⟩

theorem Step.settles {step : Step μ} (sets : step.sets = some entry) (free : step.BarFree) :
    ∃ now, step.time = some now ∧ layout.Settles now entry state (step.perform library backend state) := by
  cases step with
  | transaction operation =>
      cases operation with
      | setObject model ifMatch now object =>
          cases sets
          exact ⟨now, rfl, Layout.settles_setObject clear hashed sound model ifMatch now object⟩
      | setRelation model ifMatch now relation =>
          cases sets
          exact ⟨now, rfl, Layout.settles_setRelation clear hashed sound model ifMatch now free⟩
      | _ => cases sets
  | request received =>
      obtain ⟨model, now, opCode, message⟩ := received
      refine ⟨now, rfl, ?_⟩
      cases message with
      | unset => cases opCode <;> cases sets
      | object request =>
          cases opCode with
          | set =>
              obtain ⟨object, rfl, rfl⟩ := Option.map_eq_some_iff.mp sets
              apply Layout.settles_validated
              intro row passed
              cases eq_of_validateImportObject passed
              obtain ⟨_, valid, _⟩ := except_bind_eq_ok.mp passed
              exact ⟨clear.objects.message object valid, layout.stores_storeObject hashed sound now object⟩
          | _ => cases sets
      | relation request =>
          cases opCode with
          | set =>
              obtain ⟨relation, rfl, rfl⟩ := Option.map_eq_some_iff.mp sets
              apply Layout.settles_validated
              intro row passed
              cases eq_of_validateImportRelation passed
              obtain ⟨_, valid, _⟩ := except_bind_eq_ok.mp passed
              exact ⟨⟨clear.relations.message relation valid, free.1, free.2⟩,
                layout.stores_storeRelation hashed sound now relation⟩
          | _ => cases sets
  | row applied =>
      obtain ⟨model, now, row⟩ := applied
      refine ⟨now, rfl, ?_⟩
      cases row with
      | object request =>
          obtain ⟨object, rfl, rfl⟩ := Option.map_eq_some_iff.mp sets
          apply Layout.settles_validated
          intro row passed
          cases Datasync.eq_of_validateObject passed
          obtain ⟨_, valid, _⟩ := except_bind_eq_ok.mp passed
          exact ⟨clear.objects.message object valid, layout.stores_storeObject hashed sound now object⟩
      | relation request =>
          obtain ⟨relation, rfl, rfl⟩ := Option.map_eq_some_iff.mp sets
          apply Layout.settles_validated
          intro row passed
          cases Datasync.eq_of_validateRelation passed
          obtain ⟨_, valid, _⟩ := except_bind_eq_ok.mp passed
          exact ⟨⟨clear.relations.message relation valid, free.1, free.2⟩,
            layout.stores_storeRelation hashed sound now relation⟩

end Settling

end Sets

section Removals

/-- Rows are removed, and none is written. -/
def removalsOnly : RowPolicy := ⟨fun _ _ => False, fun _ => False, fun _ => True, True⟩

variable {ω μ : Type} [Wire ω μ] {library : Library μ} {engine : Engine ω} {state after : engine.State}

namespace Engine

def Removes (library : Library μ) (engine : Engine ω) (before after : engine.State) : Prop :=
  (engine.layout library).sound after ∧ ∀ place,
    (engine.layout library).entry after place = (engine.layout library).entry before place ∨
      (engine.layout library).entry after place = none

theorem removes_exec {β : Type} {op : TxOp μ β} (allowed : removalsOnly.contract.requires op)
    (sound : (engine.layout library).sound state) :
    engine.Removes library state (engine.backend.exec op state).2 := by
  refine ⟨(engine.layout library).keeps op sound, fun place => ?_⟩
  rcases entry_exec sound allowed with same | ⟨written, row, object, relation, changed⟩ | gone
  · exact .inl (congrFun same place)
  · have vacated : row = none := by
      cases row with
      | none => rfl
      | some entry =>
          cases entry with
          | object message => cases object message rfl
          | relation message => cases relation message rfl
    rw [changed, Function.update_apply, vacated]
    split
    · exact .inr rfl
    · exact .inl rfl
  · exact .inr (gone place)

theorem Removes.trans {middle : engine.State} (first : engine.Removes library state middle)
    (second : engine.Removes library middle after) : engine.Removes library state after := by
  refine ⟨second.1, fun place => ?_⟩
  rcases second.2 place with same | gone
  · rw [same]
    exact first.2 place
  · exact .inr gone

theorem honours_removalsOnly (before : engine.State) :
    engine.backend.Honours (removalsOnly.contract (μ := μ)) (engine.Removes library before) := by
  intro β op state removed allowed
  refine ⟨removed.trans (removes_exec allowed removed.1), ?_⟩
  cases op with
  | scanRelations => exact fun _ _ _ _ => trivial
  | _ => exact trivial

end Engine

theorem within_importHandler_removal (model : μ) (now : Timestamp) {request : ImportRequest}
    (removal : (Step.request ⟨model, now, request⟩).sets = none) :
    (importHandler library model now request).Within removalsOnly.contract := by
  obtain ⟨opCode, message⟩ := request
  have anyRemoval {α : Type} {validated : Except Err α} {body : α → Tx μ PUnit}
      (within : ∀ value, (body value).Within removalsOnly.contract) :
      (Program.done validated >>= body).Within removalsOnly.contract := .bind (.done _) within
  cases message with
  | unset => exact trivial
  | object request =>
      cases opCode with
      | set =>
          cases Option.map_eq_none_iff.mp removal
          exact trivial
      | delete => exact anyRemoval fun found => within_removeObject found
      | deleteWithRelations =>
          refine anyRemoval fun found => .bind (within_removeObject found) fun _ => ?_
          exact .bind (within_deleteRelationsWithPrefix _ _ _) fun _ => within_deleteRelationsWithPrefix _ _ _
      | other code => exact trivial
  | relation request =>
      cases opCode with
      | set =>
          cases Option.map_eq_none_iff.mp removal
          exact trivial
      | delete => exact anyRemoval fun found => within_removeRelation trivial
      | deleteWithRelations => exact trivial
      | other code => exact trivial

theorem Step.removes {step : Step μ} (sets : step.sets = none) (single : step.Single)
    (sound : (engine.layout library).sound state) :
    engine.Removes library state (step.perform library engine.backend state).2 := by
  have start : engine.Removes library state state := ⟨sound, fun _ => .inl rfl⟩
  cases step with
  | transaction operation =>
      have admits : operation.Admits library removalsOnly := by
        cases operation with
        | importStream | subscriber => cases single
        | setObject | setRelation => cases sets
        | deleteRelation => exact fun _ => trivial
        | deleteObject | diff | setManifest | syncManifest | deleteManifest => exact trivial
      exact (Operation.within admits).commit (Engine.honours_removalsOnly state) start
  | request received =>
      exact ((within_importHandler_removal received.model received.now sets).run
        (Engine.honours_removalsOnly state) start).1
  | row applied =>
      obtain ⟨model, now, row⟩ := applied
      cases row with
      | object request =>
          cases Option.map_eq_none_iff.mp sets
          exact start
      | relation request =>
          cases Option.map_eq_none_iff.mp sets
          exact start

end Removals

end Eamerald.Directory
