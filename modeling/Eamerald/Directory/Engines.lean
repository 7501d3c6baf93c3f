import Eamerald.Directory.Cursors
import Eamerald.Directory.Layouts
import Eamerald.Directory.Operations
import Eamerald.Store.Policy

/-! The two backends as the two cases of one type, so that a result can speak of a pair
of stores that run on any of them. -/

set_option autoImplicit false

namespace Eamerald.Directory

open Foundation Store

inductive Engine (ω : Type) where
  | bolt
  | postgres (server : Postgres.Server ω)

namespace Engine

section Stores

variable {ω : Type}

def State : Engine ω → Type
  | .bolt => Bolt.BoltDB ω
  | .postgres _ => Postgres.Tables ω

def ObjectPlace : Engine ω → Type
  | .bolt => Bolt.Key
  | .postgres _ => ObjectIdentifier

def RelationPlace : Engine ω → Type
  | .bolt => Bolt.Key
  | .postgres _ => RelationIdentifier

def Rest : Engine ω → Type
  | .bolt => Option (Bolt.Bucket ω)
  | .postgres _ => Option (Postgres.ManifestRow ω)

instance decidableObjectPlace : (engine : Engine ω) → DecidableEq engine.ObjectPlace
  | .bolt => inferInstanceAs (DecidableEq Bolt.Key)
  | .postgres _ => inferInstanceAs (DecidableEq ObjectIdentifier)

instance decidableRelationPlace : (engine : Engine ω) → DecidableEq engine.RelationPlace
  | .bolt => inferInstanceAs (DecidableEq Bolt.Key)
  | .postgres _ => inferInstanceAs (DecidableEq RelationIdentifier)

def empty : (engine : Engine ω) → engine.State
  | .bolt => Bolt.emptyDB
  | .postgres _ => Postgres.emptyTables

/-- What is known of the server, if there is one. -/
def Lawful : Engine ω → Prop
  | .bolt => True
  | .postgres server => server.Lawful

end Stores

variable {ω μ : Type} [Wire ω μ]

def backend : (engine : Engine ω) → Backend μ engine.State
  | .bolt => Bolt.backend
  | .postgres server => Postgres.backend server

def layout (library : Library μ) : (engine : Engine ω) →
    Layout library engine.backend engine.ObjectPlace engine.RelationPlace engine.Rest
  | .bolt => Bolt.layout library
  | .postgres server => Postgres.layout server library

variable {library : Library μ}

def reached (library : Library μ) (engine : Engine ω) (operations : List (Operation μ)) : engine.State :=
  runOperations library engine.backend operations engine.empty

theorem sound_empty (engine : Engine ω) : (engine.layout library).sound engine.empty := by
  cases engine with
  | bolt => exact Bolt.filed_emptyDB
  | postgres server => exact Postgres.filed_emptyTables

theorem sound_reached (engine : Engine ω) (operations : List (Operation μ)) :
    (engine.layout library).sound (engine.reached library operations) := by
  have runs (state : engine.State) (sound : (engine.layout library).sound state) :
      (engine.layout library).sound (runOperations library engine.backend operations state) := by
    induction operations generalizing state with
    | nil => exact sound
    | cons operation rest ih => exact ih _ ((engine.layout library).sound_update _ sound)
  exact runs engine.empty engine.sound_empty

section Resuming

variable {engine : Engine ω} {state : engine.State}

theorem resumes_objects (lawful : engine.Lawful) (sound : (engine.layout library).sound state) :
    ∃ rows, Resumes engine.backend state (.scanObjects []) rows := by
  cases engine with
  | postgres server => exact ⟨_, Postgres.resumes_scanObjects state lawful []⟩
  | bolt =>
      obtain ⟨bucket, found, decodes⟩ := (sound : Bolt.Filed state).objects
      refine ⟨_, Bolt.resumes_scanObjects found (fun entry listed => ?_) []⟩
      obtain ⟨object, here⟩ := decodes.exists_key listed
      exact here ▸ Bolt.objectPlace_ne_nil object.ident

theorem resumes_relations (lawful : engine.Lawful) (sound : (engine.layout library).sound state) :
    ∃ rows, Resumes engine.backend state (.scanRelations .byObject {}) rows := by
  cases engine with
  | postgres server => exact ⟨_, Postgres.resumes_scanRelations state lawful .byObject {}⟩
  | bolt =>
      obtain ⟨bucket, found, decodes⟩ := (sound : Bolt.Filed state).relations
      refine ⟨_, Bolt.resumes_scanRelations found (fun entry listed => ?_) {}⟩
      obtain ⟨relation, here⟩ := decodes.exists_key listed
      exact here ▸ Bolt.objKeyOf_ne_nil relation.ident

end Resuming

section Manifest

variable (engine : Engine ω)

def rowless : Contract (TxOp μ) Err where
  requires
    | .setObject _ | .deleteObject _ _ | .setRelation _ | .deleteRelation _ | .deleteManifest => False
    | _ => True
  ensures _ _ := True

theorem rowless_exec {β : Type} (op : TxOp μ β) (allowed : rowless.requires op) (state : engine.State) :
    (engine.layout library).entry (engine.backend.exec op state).2 = (engine.layout library).entry state := by
  cases engine with
  | postgres server =>
      cases op with
      | setManifestModel model =>
          change (Postgres.layout server library).entry (Postgres.setManifestModel model state).2 = _
          unfold Postgres.setManifestModel
          split <;> rfl
      | setObject | deleteObject | setRelation | deleteRelation | deleteManifest => cases allowed
      | _ => rfl
  | bolt =>
      have frame {written : Bolt.BoltDB ω} (touches : Bolt.Touches .manifest state written) :
          (Bolt.layout library).entry written = (Bolt.layout library).entry state := by
        funext place
        cases place with
        | inl place =>
            exact congrArg (Option.map Entry.object)
              (congrFun (Bolt.rowsOf_congr (touches.bucket (by decide))) place)
        | inr place =>
            exact congrArg (Option.map Entry.relation)
              (congrFun (Bolt.rowsOf_congr (touches.bucket (by decide))) place)
      cases op with
      | setManifest metadata body => exact frame (Bolt.touches_setManifest metadata body state)
      | setManifestModel model => exact frame (Bolt.touches_setManifestModel model state)
      | setObject | deleteObject | setRelation | deleteRelation | deleteManifest => cases allowed
      | _ => rfl

theorem entry_empty (place : engine.ObjectPlace ⊕ engine.RelationPlace) :
    (engine.layout library).entry engine.empty place = none := by
  cases engine with
  | bolt => exact Bolt.entry_emptyDB library place
  | postgres server => cases place <;> rfl

theorem entry_deleteManifest (state : engine.State) (place : engine.ObjectPlace ⊕ engine.RelationPlace) :
    (engine.layout library).entry (engine.backend.exec (TxOp.deleteManifest (μ := μ)) state).2 place = none := by
  cases engine with
  | bolt =>
      have emptied : ((Engine.bolt : Engine ω).backend.exec (TxOp.deleteManifest (μ := μ)) state).2 =
        Bolt.emptyDB := Bolt.deleteManifest_eq state
      rw [emptied]
      exact Bolt.entry_emptyDB library place
  | postgres server => cases place <;> rfl

/-- What a statement does to the rows: nothing, one row is written or removed, or all are
removed. -/
theorem entry_exec {engine : Engine ω} {state : engine.State} {policy : RowPolicy}
    (sound : (engine.layout library).sound state) {β : Type} {op : TxOp μ β}
    (allowed : policy.contract.requires op) :
    (engine.layout library).entry (engine.backend.exec op state).2 = (engine.layout library).entry state ∨
      (∃ place row, (∀ object, row = some (.object object) → policy.object object.type object.id) ∧
        (∀ relation, row = some (.relation relation) → policy.relation relation.ident) ∧
        (engine.layout library).entry (engine.backend.exec op state).2 =
          Function.update ((engine.layout library).entry state) place row) ∨
      ∀ place, (engine.layout library).entry (engine.backend.exec op state).2 place = none := by
  have kept (rowsKept : rowless.requires op) :
      (engine.layout library).entry (engine.backend.exec op state).2 = (engine.layout library).entry state :=
    engine.rowless_exec op rowsKept state
  cases op with
  | setObject object =>
      by_cases fits : (engine.layout library).objects.fits object.ident
      · obtain ⟨after, ran, _, changed⟩ := (engine.layout library).objects.write sound fits
        have wrote : engine.backend.exec (TxOp.setObject (μ := μ) object) state = (.ok object, after) := ran
        refine .inr (.inl ⟨.inl ((engine.layout library).objects.key object.ident), some (.object object), ?_, ?_, ?_⟩)
        · rintro _ ⟨⟩
          exact allowed
        · rintro _ ⟨⟩
        · rw [wrote]
          exact (congrArg Data.entry changed).trans (entry_set_objects _ _ _)
      · obtain ⟨error, ran⟩ := (engine.layout library).objects.refuse sound fits
        have refused : engine.backend.exec (TxOp.setObject (μ := μ) object) state = (.error error, state) := ran
        exact .inl (by rw [refused])
  | setRelation relation =>
      by_cases fits : (engine.layout library).relations.fits relation.ident
      · obtain ⟨after, ran, _, changed⟩ := (engine.layout library).relations.write sound fits
        have wrote : engine.backend.exec (TxOp.setRelation (μ := μ) relation) state =
          (.ok relation, after) := ran
        refine .inr (.inl ⟨.inr ((engine.layout library).relations.key relation.ident), some (.relation relation),
          ?_, ?_, ?_⟩)
        · rintro _ ⟨⟩
        · rintro _ ⟨⟩
          exact allowed
        · rw [wrote]
          exact (congrArg Data.entry changed).trans (entry_set_relations _ _ _)
      · obtain ⟨error, ran⟩ := (engine.layout library).relations.refuse sound fits
        have refused : engine.backend.exec (TxOp.setRelation (μ := μ) relation) state =
          (.error error, state) := ran
        exact .inl (by rw [refused])
  | deleteObject objectType objectId =>
      obtain ⟨after, ran, _, changed⟩ :=
        (engine.layout library).objects.remove sound ⟨objectType, objectId⟩
      have removed : engine.backend.exec (TxOp.deleteObject (μ := μ) objectType objectId) state =
        (.ok (), after) := ran
      refine .inr (.inl ⟨.inl ((engine.layout library).objects.key ⟨objectType, objectId⟩), none, by simp,
        by simp, ?_⟩)
      rw [removed]
      exact (congrArg Data.entry changed).trans (entry_set_objects _ _ none)
  | deleteRelation ident =>
      obtain ⟨after, ran, _, changed⟩ := (engine.layout library).relations.remove sound ident
      have removed : engine.backend.exec (TxOp.deleteRelation (μ := μ) ident) state = (.ok (), after) := ran
      refine .inr (.inl ⟨.inr ((engine.layout library).relations.key ident), none, by simp, by simp, ?_⟩)
      rw [removed]
      exact (congrArg Data.entry changed).trans (entry_set_relations _ _ none)
  | deleteManifest => exact .inr (.inr (engine.entry_deleteManifest state))
  | getObject | scanObjects | getRelationExact | scanRelations | scanRelationsFiltered
  | relationsExistForObject | manifestExists | getManifestMetadata | getManifestBody
  | getManifestModel | setManifest | setManifestModel => exact .inl (kept trivial)

theorem rowless_setManifestTx (cached next : μ) (metadata : Metadata) (data : Bytes) :
    (setManifestTx library cached next metadata data).Within rowless := by
  have reported {α : Type} {context : String} {program : Tx μ α} (within : program.Within rowless) :
      (reporting library context program).Within rowless := by
    apply Program.Within.bind within.attempt
    intro outcome
    cases outcome <;> exact trivial
  have counting : (calculateStats : Tx μ Stats).Within rowless :=
    .bind (.bind (.lift trivial) fun _ => trivial) fun _ => .bind (.lift trivial) fun _ => trivial
  refine .bind (reported counting) fun stats => ?_
  refine .bind (.done _) fun _ => ?_
  exact .bind (reported (.lift trivial)) fun _ => reported (.lift trivial)

theorem entry_setManifestTx (cached next : μ) (metadata : Metadata) (data : Bytes) (state : engine.State) :
    (engine.layout library).entry
        (update engine.backend (setManifestTx library cached next metadata data) state).2 =
      (engine.layout library).entry state := by
  have honours : engine.backend.Honours rowless fun after =>
      (engine.layout library).entry after = (engine.layout library).entry state := by
    intro β op before same allowed
    exact ⟨(engine.rowless_exec op allowed before).trans same, trivial⟩
  exact (rowless_setManifestTx cached next metadata data).commit honours rfl

end Manifest

end Engine

end Eamerald.Directory
