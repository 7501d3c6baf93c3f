import Eamerald.Concurrency.Optimistic
import Eamerald.Datasync.Handlers
import Eamerald.Directory.Interruption
import Eamerald.Directory.RowKinds

/-! Imports and synchronisations that share transactions of the key-value engine.
Their functions take requests from a stream and rows from a channel, so what a
rolled back transaction read is gone when its functions are run again. -/

set_option autoImplicit false

namespace Eamerald.Concurrency

open Foundation Store Directory

variable {key : RowKey}

section Items

variable {μ : Type} (library : Library μ)

/-- What a function of a batch takes from its stream or channel. -/
inductive BatchItem (μ : Type) where
  | request (received : Received μ)
  | row (applied : Datasync.Applied μ)

def BatchItem.handle : BatchItem μ → Tx μ PUnit
  | .request received => handleReceived library received
  | .row applied => Datasync.apply library applied

def BatchItem.sets {μ : Type} : BatchItem μ → Option RowKey
  | .request ⟨_, _, .set, .object (some object)⟩ => some (.object object.ident)
  | .request ⟨_, _, .set, .relation (some relation)⟩ => some (.relation relation.ident)
  | .row ⟨_, _, .object (some object)⟩ => some (.object object.ident)
  | .row ⟨_, _, .relation (some relation)⟩ => some (.relation relation.ident)
  | _ => none

def BatchItem.isDelete {μ : Type} : BatchItem μ → Bool
  | .request received =>
      received.request.opCode = .delete || received.request.opCode = .deleteWithRelations
  | .row _ => false

/-- A call whose function is run in a batch. An import sends its counters at the end of
each run, which may fail. -/
inductive BatchCall (μ : Type) where
  | importer (requests : List (Received μ)) (sends : Nat → Except Err PUnit)
  | subscriber (rows : List (Datasync.Applied μ))

def BatchCall.consumer {μ : Type} : BatchCall μ → Consumer Err (BatchItem μ)
  | .importer requests sends => { unread := requests.map .request, finish := sends }
  | .subscriber rows => { unread := rows.map .row }

def BatchCall.body : BatchCall μ → Tx μ PUnit
  | .importer requests sends => do
      let _ ← importStream library requests (.eof (sends 0))
  | .subscriber rows => Datasync.subscriber library rows

end Items

section FirstRuns

variable {μ σ : Type} {library : Library μ} {backend : Backend μ σ}

theorem run_subscriber (rows : List (Datasync.Applied μ)) (state : σ) :
    (Datasync.subscriber library rows).run backend state =
      (.ok ⟨⟩, (consume backend (Datasync.apply library) rows state).2) := by
  induction rows generalizing state with
  | nil => rfl
  | cons applied rows ih =>
      unfold Datasync.subscriber
      rw [Program.each, Program.run_bind, Program.bind_eq, Program.run_bind, Program.run_attempt]
      exact ih _

end FirstRuns

section Presence

variable {ω μ : Type} [Wire ω μ] {db : Bolt.BoltDB ω}

def holdsRow (db : Bolt.BoltDB ω) : RowKey → Bool
  | .object ident => (Bolt.getObject ident.objectType ident.objectId db).isOk
  | .relation ident => (Bolt.getRelationExact ident db).isOk

theorem isOk_get_set {M : Type} {codec : Codec ω M} {path : Bolt.Path} {key : Bolt.Key} (present : (Bolt.get codec path key db).isOk) (place : Bolt.Key)
    (message : M) : (Bolt.get codec path key (Bolt.set codec path place message db).2).isOk := by
  rcases Bolt.set_state codec path place message db with same | ⟨bucket, found, written⟩
  · rwa [same]
  · rw [written, Bolt.get_of_some key (Bolt.bucket_assign_self db path _),
      Std.ExtTreeMap.getElem?_insert]
    by_cases same : compare place key = .eq
    · rw [if_pos same]
      exact congrArg Except.isOk (codec.unmarshal_marshal message)
    · rw [if_neg same, ← Bolt.get_of_some key found]
      exact present

theorem holdsRow_setObject (present : holdsRow db key)
    (object : Object) : holdsRow (Bolt.setObject object db).2 key := by
  cases key with
  | object ident => exact isOk_get_set present _ object
  | relation ident =>
      have kept : (Bolt.setObject object db).2.bucket .relationsObj = db.bucket .relationsObj :=
        Bolt.bucket_set Wire.object _ object db (by decide)
      exact (congrArg Except.isOk (Bolt.get_congr _ kept)).trans present

theorem holdsRow_setRelation (present : holdsRow db key)
    (relation : Relation) : holdsRow (Bolt.setRelation relation db).2 key := by
  cases key with
  | object ident =>
      have kept : (Bolt.setRelation relation db).2.bucket .objects = db.bucket .objects :=
        (Bolt.bucket_setRelation relation db (by decide)).trans
          (Bolt.bucket_set Wire.relation _ relation db (by decide))
      exact (congrArg Except.isOk (Bolt.get_congr _ kept)).trans present
  | relation ident =>
      have kept : (Bolt.setRelation relation db).2.bucket .relationsObj = _ :=
        Bolt.bucket_setRelation relation db (by decide)
      have written := isOk_get_set present (Bolt.objKeyOf relation.ident) relation
      exact (congrArg Except.isOk (Bolt.get_congr _ kept)).trans written

end Presence

section Handling

variable {ω μ : Type} [Wire ω μ] {library : Library μ} {db : Bolt.BoltDB ω}

theorem holdsRow_storeObject (present : holdsRow db key) (now : Timestamp) (object : Object) :
    holdsRow ((storeObject library now object).run Bolt.backend db).2 key := by
  rw [storeObject_eq]
  exact RowKind.store_keeps (fun _ _ => rfl) (holdsRow · key)
    (fun row _ held => holdsRow_setObject held row) present

theorem holdsRow_storeRelation (present : holdsRow db key) (now : Timestamp) (relation : Relation) :
    holdsRow ((storeRelation library now relation).run Bolt.backend db).2 key := by
  rw [storeRelation_eq]
  exact RowKind.store_keeps (fun _ _ => rfl) (holdsRow · key)
    (fun row _ held => holdsRow_setRelation held row) present

theorem holdsRow_handle {item : BatchItem μ} (keeps : ¬ item.isDelete) (present : holdsRow db key) :
    holdsRow ((item.handle library).run Bolt.backend db).2 key := by
  have objects {validated : Except Err Object} {now : Timestamp} :
      holdsRow ((Program.done validated >>= storeObject library now).run Bolt.backend db).2 key :=
    RowKind.keeps_validated (holdsRow · key) present
      fun object => holdsRow_storeObject present now object
  have relations {validated : Except Err Relation} {now : Timestamp} :
      holdsRow ((Program.done validated >>= storeRelation library now).run Bolt.backend db).2 key :=
    RowKind.keeps_validated (holdsRow · key) present
      fun relation => holdsRow_storeRelation present now relation
  cases item with
  | row applied =>
      obtain ⟨model, now, row⟩ := applied
      cases row with
      | object object => exact objects
      | relation relation => exact relations
  | request received =>
      obtain ⟨model, now, opCode, message⟩ := received
      cases message with
      | unset => exact present
      | object object =>
          cases opCode with
          | set => exact objects
          | delete | deleteWithRelations => exact absurd rfl keeps
          | other code => exact present
      | relation relation =>
          cases opCode with
          | set => exact relations
          | delete | deleteWithRelations => exact absurd rfl keeps
          | other code => exact present

theorem holdsRow_of_set (hashes : HashesPresent library) {before after : Bolt.BoltDB ω}
    {item : BatchItem μ} (sets : item.sets = some key)
    (ran : (item.handle library).run Bolt.backend before = (.ok ⟨⟩, after)) : holdsRow after key := by
  have objects {validated : Except Err Object} {now : Timestamp} {object : Object}
      (same : ∀ row, validated = .ok row → row = object)
      (stored : (Program.done validated >>= storeObject library now).run Bolt.backend before =
        (.ok ⟨⟩, after)) : holdsRow after (.object object.ident) := by
    obtain ⟨row, valid, continued⟩ := Program.run_check_ok stored
    cases same row valid
    rw [storeObject_eq] at continued
    refine RowKind.isOk_read_of_store (fun _ _ => rfl) ?_ (hashes.object object) continued
    intro row state stored next written
    exact congrArg Except.isOk (Bolt.get_of_set written)
  have relations {validated : Except Err Relation} {now : Timestamp} {relation : Relation}
      (same : ∀ row, validated = .ok row → row = relation)
      (stored : (Program.done validated >>= storeRelation library now).run Bolt.backend before =
        (.ok ⟨⟩, after)) : holdsRow after (.relation relation.ident) := by
    obtain ⟨row, valid, continued⟩ := Program.run_check_ok stored
    cases same row valid
    rw [storeRelation_eq] at continued
    refine RowKind.isOk_read_of_store (fun _ _ => rfl) ?_ (hashes.relation relation.ident) continued
    intro row state stored next written
    exact congrArg Except.isOk (Bolt.getRelationExact_of_setRelation written)
  cases item with
  | row applied =>
      obtain ⟨model, now, row⟩ := applied
      match row, sets with
      | .object (some object), rfl => exact objects (fun _ => Datasync.eq_of_validateObject) ran
      | .relation (some relation), rfl => exact relations (fun _ => Datasync.eq_of_validateRelation) ran
  | request received =>
      obtain ⟨model, now, opCode, message⟩ := received
      match opCode, message, sets with
      | .set, .object (some object), rfl => exact objects (fun _ => eq_of_validateImportObject) ran
      | .set, .relation (some relation), rfl =>
          exact relations (fun _ => eq_of_validateImportRelation) ran

end Handling

section Durability

variable {ω μ : Type} [Wire ω μ] (library : Library μ)

def batchMachine : Machine (Batch Err (BatchItem μ) (Bolt.BoltDB ω)) (BatchEvent Err) :=
  Batch.machine Bolt.backend (BatchItem.handle library)

def batchStart (calls : Nat → BatchCall μ) (db : Bolt.BoltDB ω) :
    Batch Err (BatchItem μ) (Bolt.BoltDB ω) :=
  { store := db, consumers := fun call => (calls call).consumer }

def replay (db : Bolt.BoltDB ω) (log : List (BatchItem μ × Except Err PUnit)) : Bolt.BoltDB ω :=
  (consume Bolt.backend (BatchItem.handle library) (log.map Prod.fst) db).2

def RemovedLater (db : Bolt.BoltDB ω) (log : List (BatchItem μ × Except Err PUnit))
    (entry : BatchItem μ × Except Err PUnit) (key : RowKey) : Prop :=
  ∃ earlier removal later, log = earlier ++ removal :: later ∧ entry ∈ earlier ∧
    removal.1.isDelete ∧ holdsRow (replay library db earlier) key ∧
    ¬ holdsRow (replay library db (earlier ++ [removal])) key

variable {library}

/-- As long as no transaction is run again in which a function has read something: every set
request that an acknowledged call counted without an error is in the committed store, or a
later deletion removed its row. -/
theorem durable_import (hashes : HashesPresent library) (calls : Nat → BatchCall μ)
    (db : Bolt.BoltDB ω) {events : List (BatchEvent Err)}
    {final : Batch Err (BatchItem μ) (Bolt.BoltDB ω)}
    (respects : (batchMachine library).Respects
      (Batch.Harmless Bolt.backend (BatchItem.handle library)) (batchStart calls db) events)
    (ran : (batchMachine library).run (batchStart calls db) events = some final)
    {call : Nat} (acknowledged : final.calls call = .returned (.ok ⟨⟩))
    {item : BatchItem μ} {key : RowKey}
    (counted : (item, .ok ⟨⟩) ∈ (final.consumers call).counted) (sets : item.sets = some key) :
    holdsRow final.store key ∨ RemovedLater library db final.log (item, .ok ⟨⟩) key := by
  have uncounted (call : Nat) : (calls call).consumer.counted = [] := by
    cases calls call with
    | importer => rfl
    | subscriber => rfl
  have durable := (Batch.durable_start uncounted db).run respects ran
  obtain ⟨earlier, later, whole⟩ :=
    List.append_of_mem ((durable.counted call acknowledged).subset counted)
  have replays := durable.replays
  rw [whole] at replays
  obtain ⟨before, after, handled, replayed, continued⟩ := entry_of_consume replays
  have reached (rest : List (BatchItem μ × Except Err PUnit)) :
      replay library db (earlier ++ (item, .ok ⟨⟩) :: rest) =
        (consume Bolt.backend (BatchItem.handle library) (rest.map Prod.fst) after).2 := by
    simp only [replay, List.map_append, List.map_cons, consume_append, replayed, consume, handled]
  rcases holds_or_ended (holdsRow · key) (·.isDelete)
    (fun _ _ keeps held => holdsRow_handle keeps held) (later.map Prod.fst)
    (holdsRow_of_set hashes sets handled) with
    held | ⟨passed, removed, remaining, places, deletes, held, lost⟩
  · rw [continued] at held
    exact .inl held
  · obtain ⟨first, rest, rfl, rfl, others⟩ := List.map_eq_append_iff.mp places
    obtain ⟨removal, last, rfl, rfl, rfl⟩ := List.map_eq_cons_iff.mp others
    refine .inr ⟨earlier ++ (item, .ok ⟨⟩) :: first, removal, last, ?_, ?_, deletes, ?_, ?_⟩
    · rw [whole, List.append_assoc, List.cons_append]
    · simp
    · rw [reached]
      exact held
    · rw [List.append_assoc, List.cons_append, reached, List.map_append, consume_append]
      exact lost

end Durability

section Streams

/-- Two imports. The first sets a document; the second is empty, and its response cannot be
sent the first time. -/
def documentImports : Nat → BatchCall Simple.Model
  | 0 => .importer [⟨{ objectTypes := ["d".toList] }, ⟨1, 0⟩, ⟨.set, .object (some (document "a" ""))⟩⟩]
      fun _ => .ok ⟨⟩
  | _ => .importer [] fun run => if run = 0 then .error (.engine "transport is closing") else .ok ⟨⟩

def importsStart : Batch Err (BatchItem Simple.Model) (Bolt.BoltDB (Blob Simple.Model)) :=
  batchStart documentImports Bolt.emptyDB

/-- The second import fails and is run again by itself. -/
theorem document_import_durable :
    ∃ final, (batchMachine Simple.library).run importsStart
        [.shared [1] (.ok ⟨⟩), .shared [0] (.ok ⟨⟩), .solo 1 (.ok ⟨⟩)] = some final ∧
      ∃ item, item.sets = some (.object (document "" "").ident) ∧
        (holdsRow final.store (.object (document "" "").ident) ∨
          RemovedLater Simple.library importsStart.store final.log (item, .ok ⟨⟩)
            (.object (document "" "").ident)) := by
  have respects : (batchMachine Simple.library).Respects
      (Batch.Harmless Bolt.backend (BatchItem.handle Simple.library))
      importsStart [.shared [1] (.ok ⟨⟩), .shared [0] (.ok ⟨⟩), .solo 1 (.ok ⟨⟩)] := by
    refine Machine.respects_cons rfl (.inr ?_) (Machine.respects_cons rfl (.inl rfl)
      (Machine.respects_cons rfl trivial trivial))
    intro call member
    cases List.mem_singleton.mp member
    rfl
  obtain ⟨final, ran, passed⟩ := Machine.exists_final (batchMachine Simple.library) importsStart
    [.shared [1] (.ok ⟨⟩), .shared [0] (.ok ⟨⟩), .solo 1 (.ok ⟨⟩)]
    (fun final => (final.calls 0).acknowledged && (final.consumers 0).counted.any fun entry =>
      entry.1.sets = some (.object (document "" "").ident) && entry.2.isOk) (by decide +kernel)
  obtain ⟨acknowledged, counted⟩ := Bool.and_eq_true_iff.mp passed
  obtain ⟨⟨item, outcome⟩, member, sets⟩ := List.any_eq_true.mp counted
  cases outcome with
  | error error => simp [Except.isOk, Except.toBool] at sets
  | ok _ =>
      have named : item.sets = some (.object (document "" "").ident) := by
        simpa [Except.isOk, Except.toBool] using sets
      exact ⟨final, ran, item, named, durable_import simple_hashesPresent documentImports _
        respects ran (Call.eq_of_acknowledged acknowledged) member named⟩

/-- The first import is acknowledged after the two had shared a transaction that was rolled
back: its document is counted, but not in the store, and there is no deletion. -/
theorem acknowledged_document_lost :
    (((batchMachine Simple.library).run importsStart
      [.shared [0, 1] (.ok ⟨⟩), .shared [0] (.ok ⟨⟩), .solo 1 (.ok ⟨⟩)]).map fun final =>
        ((final.calls 0).acknowledged,
          (final.consumers 0).counted.map fun entry => (entry.1.sets, entry.2.isOk),
          holdsRow final.store (.object (document "" "").ident), final.log.length)) =
      some (true, [(some (.object (document "" "").ident), true)], false, 0) := by
  decide +kernel

end Streams

end Eamerald.Concurrency
