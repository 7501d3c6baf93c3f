import Eamerald.Foundation.SessionProperties
import Eamerald.Directory.RowKinds
import Eamerald.Directory.Simple
import Eamerald.Bolt.Rows
import Eamerald.Postgres.Tx

/-! Set calls under an If-Match header. The row is read, its etag compared and the
row written by separate statements of one transaction, so that the comparison
protects against lost updates as far as the backend keeps the transactions of
concurrent calls apart. -/

set_option autoImplicit false

namespace Eamerald.Concurrency

open Foundation Store Directory

section Backends

inductive RowKey where
  | object (ident : ObjectIdentifier)
  | relation (ident : RelationIdentifier)
deriving DecidableEq

def boltIsolation {μ : Type} : Isolation (TxOp μ) RowKey := ⟨some .writer, fun _ => none⟩

/-- READ COMMITTED: a statement sees what is committed, and waits for the last writer of its row. -/
def postgresIsolation {μ : Type} : Isolation (TxOp μ) RowKey where
  begins := none
  locks
    | .setObject object => some (.object object.ident)
    | .deleteObject objectType objectId => some (.object ⟨objectType, objectId⟩)
    | .setRelation relation => some (.relation relation.ident)
    | .deleteRelation ident => some (.relation ident)
    | _ => none

variable {μ σ : Type}

/-- Reading a row changes nothing, and finds the etag that was written last. -/
structure ReadsBack (backend : Backend μ σ) : Prop where
  getObject_state : ∀ objectType objectId state,
    (backend.exec (.getObject objectType objectId) state).2 = state
  getObject_setObject : ∀ {object state stored after},
    backend.exec (.setObject object) state = (.ok stored, after) →
      (backend.exec (.getObject object.type object.id) after).1.map Object.etag = .ok object.etag
  getRelation_state : ∀ ident state, (backend.exec (.getRelationExact ident) state).2 = state
  getRelation_setRelation : ∀ {relation state stored after},
    backend.exec (.setRelation relation) state = (.ok stored, after) →
      (backend.exec (.getRelationExact relation.ident) after).1.map Relation.etag =
        .ok relation.etag

theorem bolt_readsBack {ω : Type} [Wire ω μ] : ReadsBack (Bolt.backend : Backend μ (Bolt.BoltDB ω)) where
  getObject_state _ _ _ := rfl
  getObject_setObject := by
    intro object state stored after written
    have found : Bolt.getObject object.type object.id after = .ok object := Bolt.get_of_set written
    change (Bolt.getObject object.type object.id after).map Object.etag = _
    rw [found]
    rfl
  getRelation_state _ _ := rfl
  getRelation_setRelation := by
    intro relation state stored after written
    have found : Bolt.getRelationExact relation.ident after = .ok relation :=
      Bolt.getRelationExact_of_setRelation written
    change (Bolt.getRelationExact relation.ident after).map Relation.etag = _
    rw [found]
    rfl

theorem postgres_readsBack {ω : Type} [Wire ω μ] (server : Postgres.Server ω) :
    ReadsBack (Postgres.backend server : Backend μ (Postgres.Tables ω)) where
  getObject_state _ _ _ := rfl
  getObject_setObject := by
    intro object state stored after written
    cases written
    change (Postgres.select Wire.object
      (state.objects.insert object.ident (Wire.object.marshal object))[object.ident]?).map _ = _
    rw [Std.ExtTreeMap.getElem?_insert_self]
    simp only [Postgres.select, Codec.unmarshal_marshal]
    rfl
  getRelation_state _ _ := rfl
  getRelation_setRelation := by
    intro relation state stored after written
    cases written
    change (Postgres.select Wire.relation
      (state.relations.insert relation.ident (Wire.relation.marshal relation))[relation.ident]?).map
        _ = _
    rw [Std.ExtTreeMap.getElem?_insert_self]
    simp only [Postgres.select, Codec.unmarshal_marshal]
    rfl

end Backends

section Versions

variable {μ σ R : Type} {backend : Backend μ σ} {read : TxOp μ R} {etagOf : R → GoString}
  {state : σ} {found : GoString}

variable (backend read etagOf) in
def storedTag (state : σ) : Option GoString :=
  ((backend.exec read state).1.toOption.map etagOf).filter fun etag => etag ≠ []

theorem storedTag_of_read (stored : (backend.exec read state).1.map etagOf = .ok found)
    (present : found ≠ []) : storedTag backend read etagOf state = some found := by
  unfold storedTag
  cases answer : (backend.exec read state).1 with
  | error error =>
      rw [answer] at stored
      cases stored
  | ok current =>
      rw [answer] at stored
      cases stored
      simpa [Except.toOption] using present

theorem read_of_storedTag (stored : storedTag backend read etagOf state = some found) :
    ∃ current, (backend.exec read state).1 = .ok current ∧ etagOf current = found ∧ found ≠ [] := by
  unfold storedTag at stored
  cases answer : (backend.exec read state).1 with
  | error error =>
      rw [answer] at stored
      cases stored
  | ok current =>
      rw [answer] at stored
      simp only [Except.toOption, Option.map_some, Option.filter_eq_some_iff, Option.some.injEq,
        decide_eq_true_eq] at stored
      exact ⟨current, rfl, stored.1, stored.2⟩

end Versions

section Sets

variable {μ σ R : Type}

/-- The shape that the transactions of set calls share. -/
def optimisticSet (current : Tx μ R) (etagOf : R → GoString) (mismatch : R → Err)
    (write : R → TxOp μ R) (etag ifMatch : GoString) : Tx μ R := do
  let updated ← current
  if ifMatch ≠ [] ∧ etagOf updated ≠ [] ∧ ifMatch ≠ etagOf updated then
    throw (mismatch updated)
  if etag = etagOf updated then return updated
  Program.lift (write updated)

theorem setObjectTx_eq (etag ifMatch : GoString) (now : Timestamp) (object : Object) :
    (setObjectTx etag ifMatch now object : Tx μ Object) =
      optimisticSet (updateMetadataObject now object) Object.etag objectMismatch
        (fun updated => .setObject { updated with etag }) etag ifMatch := rfl

theorem setRelationTx_eq (etag ifMatch : GoString) (now : Timestamp) (relation : Relation) :
    (setRelationTx etag ifMatch now relation : Tx μ Relation) =
      optimisticSet (updateMetadataRelation now relation) Relation.etag relationMismatch
        (fun updated => .setRelation { updated with etag }) etag ifMatch := rfl

variable {backend : Backend μ σ} {current : Tx μ R} {etagOf : R → GoString} {mismatch : R → Err}
  {write : R → TxOp μ R} {etag ifMatch : GoString} {version : σ → Option GoString}

theorem optimisticSet_replaces (present : ifMatch ≠ []) (new : etag ≠ ifMatch)
    (reads : ∀ {state found updated after}, version state = some found →
      current.run backend state = (.ok updated, after) → found ≠ [] ∧ after = state ∧ etagOf updated = found)
    (writes : ∀ {before state updated stored after}, current.run backend before = (.ok updated, state) →
      backend.exec (write updated) state = (.ok stored, after) → version after = some etag) :
    ReplacesVersion backend version ifMatch (optimisticSet current etagOf mismatch write etag ifMatch) := by
  have compared {state after : σ} {value : R} {found : GoString}
      (ran : (optimisticSet current etagOf mismatch write etag ifMatch).run backend state =
        (.ok value, after)) (stored : version state = some found) :
      found = ifMatch ∧ (etag ≠ found → version after = some etag) := by
    obtain ⟨updated, middle, read, continued⟩ := Program.run_bind_ok ran
    obtain ⟨foundPresent, rfl, tagged⟩ := reads stored read
    dsimp only at continued
    have same : found = ifMatch := by
      by_contra different
      rw [if_pos ⟨present, tagged ▸ foundPresent, fun equal => different (tagged ▸ equal.symm)⟩]
        at continued
      cases (Prod.mk.inj continued).1
    refine ⟨same, fun fresh => ?_⟩
    rw [if_neg (fun mismatched => mismatched.2.2 (same ▸ tagged.symm))] at continued
    rw [tagged, if_neg fresh] at continued
    exact writes read continued
  constructor
  · intro state after value found ran stored
    exact (compared ran stored).1
  · intro state after value ran stored
    exact ⟨etag, new, (compared ran stored).2 new⟩

end Sets

section Calls

variable {μ σ : Type} {backend : Backend μ σ} {library : Library μ} {ifMatch : GoString}

/-- The hashes are written in decimals. -/
structure HashesPresent (library : Library μ) : Prop where
  object : ∀ object, library.hashObject object ≠ []
  relation : ∀ ident, library.hashRelation ident ≠ []

theorem optimisticSet_kind_replaces {R I : Type} (kind : RowKind μ R I)
    (unchanged : ∀ ident state, (backend.exec (kind.read ident) state).2 = state)
    (readsBack : ∀ {row state stored after}, backend.exec (kind.write row) state = (.ok stored, after) →
      (backend.exec (kind.read (kind.ident row)) after).1.map kind.etag = .ok (kind.etag row))
    (now : Timestamp) (mismatch : R → Err) {row : R} (hashed : kind.hash row ≠ [])
    (present : ifMatch ≠ []) (new : kind.hash row ≠ ifMatch) :
    ReplacesVersion backend (storedTag backend (kind.read (kind.ident row)) kind.etag) ifMatch
      (optimisticSet (kind.updateMetadata now row) kind.etag mismatch
        (fun updated => kind.write (kind.tagged updated (kind.hash row))) (kind.hash row) ifMatch) := by
  refine optimisticSet_replaces present new ?_ ?_
  · intro state found updated after stored ran
    obtain ⟨current, answered, tagged, foundPresent⟩ := read_of_storedTag stored
    obtain ⟨same, _, kept⟩ := RowKind.updateMetadata_ok ran
    refine ⟨foundPresent, same.trans (unchanged _ _), ?_⟩
    rw [kept current answered (tagged ▸ foundPresent), tagged]
  · intro before state updated stored after ran written
    have tagged := readsBack written
    rw [RowKind.tagged, kind.ident_restamp, kind.etag_restamp, (RowKind.updateMetadata_ok ran).2.1]
      at tagged
    exact storedTag_of_read tagged hashed

theorem setObject_replaces (law : ReadsBack backend) (hashes : HashesPresent library)
    (present : ifMatch ≠ []) (model : μ) (now : Timestamp) {object : Object}
    (new : library.hashObject object ≠ ifMatch) :
    ReplacesVersion backend (storedTag backend (.getObject object.type object.id) Object.etag)
      ifMatch (setObject library model ifMatch now object) := by
  refine ReplacesVersion.of_checked ?_
  intro etag validated
  obtain ⟨_, _, rest⟩ := except_bind_eq_ok.mp validated
  obtain ⟨_, _, hashed⟩ := except_bind_eq_ok.mp rest
  cases hashed
  rw [setObjectTx_eq, updateMetadataObject_eq library]
  exact optimisticSet_kind_replaces (objectKind library) (fun _ _ => law.getObject_state _ _ _)
    law.getObject_setObject now objectMismatch (hashes.object object) present new

theorem setRelation_replaces (law : ReadsBack backend) (hashes : HashesPresent library)
    (present : ifMatch ≠ []) (model : μ) (now : Timestamp) {relation : Relation}
    (new : library.hashRelation relation.ident ≠ ifMatch) :
    ReplacesVersion backend (storedTag backend (.getRelationExact relation.ident) Relation.etag)
      ifMatch (setRelation library model ifMatch now relation) := by
  refine ReplacesVersion.of_checked ?_
  intro etag validated
  obtain ⟨_, _, rest⟩ := except_bind_eq_ok.mp validated
  obtain ⟨_, _, hashed⟩ := except_bind_eq_ok.mp rest
  cases hashed
  rw [setRelationTx_eq, updateMetadataRelation_eq library]
  exact optimisticSet_kind_replaces (relationKind library) law.getRelation_state
    law.getRelation_setRelation now relationMismatch (hashes.relation relation.ident) present new

structure SetCall (μ R : Type) where
  model : μ
  now : Timestamp
  row : R

variable (library ifMatch)

def setObjects (calls : Nat → Option (SetCall μ Object)) (me : Nat) : Option (Tx μ Object) :=
  (calls me).map fun call => setObject library call.model ifMatch call.now call.row

def setRelations (calls : Nat → Option (SetCall μ Relation)) (me : Nat) : Option (Tx μ Relation) :=
  (calls me).map fun call => setRelation library call.model ifMatch call.now call.row

/-- All calls set the same object, to contents that hash to other etags. -/
def ObjectsCompete (ident : ObjectIdentifier) (calls : Nat → Option (SetCall μ Object)) : Prop :=
  ∀ me call, calls me = some call →
    call.row.ident = ident ∧ library.hashObject call.row ≠ ifMatch

def RelationsCompete (ident : RelationIdentifier) (calls : Nat → Option (SetCall μ Relation)) :
    Prop :=
  ∀ me call, calls me = some call →
    call.row.ident = ident ∧ library.hashRelation call.row.ident ≠ ifMatch

variable {library ifMatch} {state : σ}

theorem ObjectsCompete.contest {ident : ObjectIdentifier}
    {calls : Nat → Option (SetCall μ Object)} (compete : ObjectsCompete library ifMatch ident calls)
    (law : ReadsBack backend) (hashes : HashesPresent library) (present : ifMatch ≠ [])
    (stored : (backend.exec (.getObject ident.objectType ident.objectId) state).1.map Object.etag =
      .ok ifMatch) : Sessions.Contest backend
      (storedTag backend (.getObject ident.objectType ident.objectId) Object.etag) ifMatch
      (.start state (setObjects library ifMatch calls) : Sessions _ _ _ _ RowKey) := by
  refine Sessions.contest_start (storedTag_of_read stored present) ?_
  intro me program found
  obtain ⟨call, called, rfl⟩ := Option.map_eq_some_iff.mp found
  obtain ⟨rfl, new⟩ := compete me call called
  exact setObject_replaces law hashes present call.model call.now new

theorem RelationsCompete.contest {ident : RelationIdentifier} {calls : Nat → Option (SetCall μ Relation)}
    (compete : RelationsCompete library ifMatch ident calls) (law : ReadsBack backend)
    (hashes : HashesPresent library) (present : ifMatch ≠ [])
    (stored : (backend.exec (.getRelationExact ident) state).1.map Relation.etag = .ok ifMatch) :
    Sessions.Contest backend (storedTag backend (.getRelationExact ident) Relation.etag) ifMatch
      (.start state (setRelations library ifMatch calls) : Sessions _ _ _ _ RowKey) := by
  refine Sessions.contest_start (storedTag_of_read stored present) ?_
  intro me program found
  obtain ⟨call, called, rfl⟩ := Option.map_eq_some_iff.mp found
  obtain ⟨rfl, new⟩ := compete me call called
  exact setRelation_replaces law hashes present call.model call.now new

end Calls

section Results

variable {ω μ : Type} [Wire ω μ] {library : Library μ} {ifMatch : GoString}

/-- Of set calls with the same If-Match header at most one succeeds: on Bolt in every
schedule, on Postgres as long as no call commits between the read and the commit of another. -/
theorem conditional_set_succeeds_once (hashes : HashesPresent library) (present : ifMatch ≠ [])
    (server : Postgres.Server ω) :
    (∀ ident calls, ObjectsCompete library ifMatch ident calls →
      (∀ db : Bolt.BoltDB ω,
        (Bolt.getObject ident.objectType ident.objectId db).map Object.etag = .ok ifMatch →
          Sessions.AtMostOneSucceeds Bolt.backend boltIsolation (fun _ _ => True)
            (.start db (setObjects library ifMatch calls))) ∧
      ∀ tables : Postgres.Tables ω,
        (Postgres.select Wire.object tables.objects[ident]?).map Object.etag = .ok ifMatch →
          Sessions.AtMostOneSucceeds (Postgres.backend server) postgresIsolation
            Sessions.Undisturbing (.start tables (setObjects library ifMatch calls))) ∧
    ∀ ident calls, RelationsCompete library ifMatch ident calls →
      (∀ db : Bolt.BoltDB ω,
        (Bolt.getRelationExact ident db).map Relation.etag = .ok ifMatch →
          Sessions.AtMostOneSucceeds Bolt.backend boltIsolation (fun _ _ => True)
            (.start db (setRelations library ifMatch calls))) ∧
      ∀ tables : Postgres.Tables ω,
        (Postgres.select Wire.relation tables.relations[ident]?).map Relation.etag = .ok ifMatch →
          Sessions.AtMostOneSucceeds (Postgres.backend server) postgresIsolation
            Sessions.Undisturbing (.start tables (setRelations library ifMatch calls)) := by
  refine ⟨?_, ?_⟩
  · intro ident calls compete
    refine ⟨?_, ?_⟩
    · intro db stored
      exact (compete.contest bolt_readsBack hashes present stored).atMostOne_of_exclusive rfl
        (Sessions.guarded_start db _)
    · intro tables stored
      exact (compete.contest (postgres_readsBack server) hashes present stored).atMostOne
  · intro ident calls compete
    refine ⟨?_, ?_⟩
    · intro db stored
      exact (compete.contest bolt_readsBack hashes present stored).atMostOne_of_exclusive rfl
        (Sessions.guarded_start db _)
    · intro tables stored
      exact (compete.contest (postgres_readsBack server) hashes present stored).atMostOne

end Results

section Documents

def document (displayName : String) (etag : String) : Object :=
  { type := "d".toList, id := "1".toList, displayName := displayName.toList, etag := etag.toList }

def renames : Nat → Option (SetCall Simple.Model Object)
  | 0 => some ⟨{ objectTypes := ["d".toList] }, ⟨1, 0⟩, document "b" ""⟩
  | 1 => some ⟨{ objectTypes := ["d".toList] }, ⟨2, 0⟩, document "c" ""⟩
  | _ => none

def documentDB : Bolt.BoltDB (Blob Simple.Model) :=
  (Bolt.setObject (μ := Simple.Model) (document "a" "a#") Bolt.emptyDB).2

def documentTables : Postgres.Tables (Blob Simple.Model) :=
  { Postgres.emptyTables with
    objects := Std.ExtTreeMap.empty.insert (document "" "").ident (.object (document "a" "a#")) }

def plainServer : Postgres.Server (Blob Simple.Model) := .plain (.model {})

theorem simple_hashesPresent : HashesPresent Simple.library := by
  constructor
  · intro object
    exact List.append_ne_nil_of_right_ne_nil _ (List.cons_ne_nil _ _)
  · intro ident
    exact Bolt.objKeyOf_ne_nil ident

theorem renames_compete : ObjectsCompete Simple.library "a#".toList (document "" "").ident renames := by
  intro me call called
  match me, called with
  | 0, called =>
      cases called
      exact ⟨rfl, by decide⟩
  | 1, called =>
      cases called
      exact ⟨rfl, by decide⟩

theorem renames_undisturbing : (Sessions.machine (Postgres.backend plainServer) postgresIsolation).Respects
      Sessions.Undisturbing (.start documentTables (setObjects Simple.library "a#".toList renames))
      [0, 0, 0, 0, 1, 1, 1] := by
  refine Machine.respects_cons rfl ?_ (Machine.respects_cons rfl ?_ (Machine.respects_cons rfl ?_
    (Machine.respects_cons rfl ?_ (Machine.respects_cons rfl ?_ (Machine.respects_cons rfl ?_
    (Machine.respects_cons rfl ?_ trivial))))))
  all_goals
    intro program value writes running other apart
    match other, apart with
    | 0, apart => first | exact absurd rfl apart | exact trivial
    | 1, apart => first | exact absurd rfl apart | exact trivial
    | other + 2, apart => exact trivial

theorem document_renamed_once :
    Sessions.AtMostOneSucceeds Bolt.backend boltIsolation (fun _ _ => True)
        (.start documentDB (setObjects Simple.library "a#".toList renames)) ∧
      (((Sessions.machine Bolt.backend boltIsolation).run
        (.start documentDB (setObjects Simple.library "a#".toList renames))
        [1, 1, 1, 1, 0, 0, 0]).map fun final =>
          ((final.session 0).succeeded, (final.session 1).succeeded)) = some (false, true) ∧
      ∃ final, (Sessions.machine (Postgres.backend plainServer) postgresIsolation).run
          (.start documentTables (setObjects Simple.library "a#".toList renames))
          [0, 0, 0, 0, 1, 1, 1] = some final ∧ (final.session 0).succeeded = true ∧
        ∀ other, (final.session other).succeeded = true → other = 0 := by
  have once := (conditional_set_succeeds_once simple_hashesPresent (by decide) plainServer).1
    (document "" "").ident renames renames_compete
  refine ⟨once.1 documentDB (by decide +kernel), by decide +kernel, ?_⟩
  obtain ⟨final, ran, succeeded⟩ := Machine.exists_final
    (Sessions.machine (Postgres.backend plainServer) postgresIsolation)
    (.start documentTables (setObjects Simple.library "a#".toList renames)) [0, 0, 0, 0, 1, 1, 1]
    (fun final => (final.session 0).succeeded) (by decide +kernel)
  refine ⟨final, ran, succeeded, ?_⟩
  intro other alsoSucceeded
  exact once.2 documentTables (by decide +kernel) _ final renames_undisturbing ran other 0
    alsoSucceeded succeeded

/-- Both calls read the document before either writes it. -/
theorem both_renames_succeed :
    (Postgres.select Wire.object documentTables.objects[(document "" "").ident]?).map Object.etag =
        .ok "a#".toList ∧
      ObjectsCompete Simple.library "a#".toList (document "" "").ident renames ∧
      (((Sessions.machine (Postgres.backend plainServer) postgresIsolation).run
        (.start documentTables (setObjects Simple.library "a#".toList renames))
        [0, 0, 1, 1, 0, 0, 1, 1]).map fun final =>
          ((final.session 0).succeeded, (final.session 1).succeeded)) = some (true, true) := by
  refine ⟨?_, renames_compete, ?_⟩
  · decide +kernel
  · decide +kernel

end Documents

end Eamerald.Concurrency
