import Eamerald.Directory.Importer

/-! Objects and relations are stored in the same way: the metadata of the stored
row is taken over, and the row is written unless its hash says that the content is
already there. What is proved about it is proved for either kind of row. -/

set_option autoImplicit false

namespace Eamerald.Directory

open Foundation Store

/-- A kind of row, with its statements and its metadata. -/
structure RowKind (μ R I : Type) where
  ident : R → I
  createdAt : R → Option Timestamp
  updatedAt : R → Option Timestamp
  etag : R → GoString
  restamp : R → (createdAt updatedAt : Option Timestamp) → (etag : GoString) → R
  hash : R → GoString
  read : I → TxOp μ R
  write : R → TxOp μ R
  remove : I → TxOp μ Unit
  setError : Err
  deleteError : Err
  ident_restamp : ∀ row created updated tag, ident (restamp row created updated tag) = ident row
  updatedAt_restamp : ∀ row created updated tag,
    updatedAt (restamp row created updated tag) = updated
  etag_restamp : ∀ row created updated tag, etag (restamp row created updated tag) = tag
  restamp_restamp : ∀ row created updated tag created' updated' tag',
    restamp (restamp row created updated tag) created' updated' tag' =
      restamp row created' updated' tag'

attribute [simp] RowKind.ident_restamp RowKind.updatedAt_restamp RowKind.etag_restamp
  RowKind.restamp_restamp

section Kinds

variable {μ : Type} (library : Library μ)

def objectKind : RowKind μ Object ObjectIdentifier where
  ident := Object.ident
  createdAt := Object.createdAt
  updatedAt := Object.updatedAt
  etag := Object.etag
  restamp object createdAt updatedAt etag := { object with createdAt, updatedAt, etag }
  hash := library.hashObject
  read ident := .getObject ident.objectType ident.objectId
  write := .setObject
  remove ident := .deleteObject ident.objectType ident.objectId
  setError := .derr .invalidObject "set".toList
  deleteError := .derr .invalidObject "delete".toList
  ident_restamp _ _ _ _ := rfl
  updatedAt_restamp _ _ _ _ := rfl
  etag_restamp _ _ _ _ := rfl
  restamp_restamp _ _ _ _ _ _ _ := rfl

def relationKind : RowKind μ Relation RelationIdentifier where
  ident := Relation.ident
  createdAt := Relation.createdAt
  updatedAt := Relation.updatedAt
  etag := Relation.etag
  restamp relation createdAt updatedAt etag := { relation with createdAt, updatedAt, etag }
  hash relation := library.hashRelation relation.ident
  read := .getRelationExact
  write := .setRelation
  remove := .deleteRelation
  setError := .derr .invalidRelation "set".toList
  deleteError := .derr .invalidRelation "delete".toList
  ident_restamp _ _ _ _ := rfl
  updatedAt_restamp _ _ _ _ := rfl
  etag_restamp _ _ _ _ := rfl
  restamp_restamp _ _ _ _ _ _ _ := rfl

end Kinds

namespace RowKind

variable {μ R I : Type} (kind : RowKind μ R I)

def content (row : R) : R := kind.restamp row none none []

@[simp] theorem content_restamp (row : R) (created updated : Option Timestamp) (tag : GoString) :
    kind.content (kind.restamp row created updated tag) = kind.content row :=
  kind.restamp_restamp row created updated tag none none []

theorem ident_eq_of_content {row other : R} (same : kind.content row = kind.content other) :
    kind.ident row = kind.ident other := by
  have idents := congrArg kind.ident same
  simpa [content] using idents

/-- The row with the metadata that goes with what a read of it answered. -/
def updated (now : Timestamp) (row : R) : Except Err R → Except Err R
  | .ok current => .ok (kind.restamp row (kind.createdAt current) (some now)
      (if kind.etag current ≠ [] then kind.etag current else kind.etag row))
  | .error error =>
      if error.isNotFound then .ok (kind.restamp row (some now) (some now) []) else .error error

def updateMetadata (now : Timestamp) (row : R) : Tx μ R := do
  match ← (Program.lift (kind.read (kind.ident row))).attempt with
  | .ok current =>
      return kind.restamp row (kind.createdAt current) (some now)
        (if kind.etag current ≠ [] then kind.etag current else kind.etag row)
  | .error error =>
      if error.isNotFound then return kind.restamp row (some now) (some now) []
      else throw error

def tagged (row : R) (tag : GoString) : R :=
  kind.restamp row (kind.createdAt row) (kind.updatedAt row) tag

def store (now : Timestamp) (row : R) : Tx μ PUnit := do
  let etag := kind.hash row
  let updated ← kind.updateMetadata now row
  if etag = kind.etag updated then return ⟨⟩
  let _ ← orElseReport kind.setError (kind.write (kind.tagged updated etag))

/-- The same with the row as it is left: the statements of `store` change it in place. -/
def storeInPlace (now : Timestamp) (row : R) : Tx μ R := do
  let etag := kind.hash row
  let updated ← kind.updateMetadata now row
  if etag = kind.etag updated then return updated
  let _ ← orElseReport kind.setError (kind.write (kind.tagged updated etag))
  return kind.tagged updated etag

def removeRow (row : R) : Tx μ PUnit := orElseReport kind.deleteError (kind.remove (kind.ident row))

theorem store_eq (now : Timestamp) (row : R) :
    kind.store now row = (kind.storeInPlace now row).bind fun _ => .done (.ok ⟨⟩) := by
  simp only [store, storeInPlace, Program.bind_eq, Program.bind_assoc]
  refine congrArg (Program.bind _) (funext fun updated => ?_)
  split
  · rfl
  · rw [Program.bind_assoc]
    rfl

end RowKind

section Equations

variable {μ : Type} (library : Library μ) (now : Timestamp) (relation : Relation) (object : Object)

theorem updateMetadataObject_eq :
    updateMetadataObject now object = (objectKind library).updateMetadata now object := by
  refine congrArg (Program.bind _) (funext fun answer => ?_)
  cases answer with
  | ok current => rfl
  | error error => rfl

theorem updateMetadataRelation_eq :
    updateMetadataRelation now relation = (relationKind library).updateMetadata now relation := by
  refine congrArg (Program.bind _) (funext fun answer => ?_)
  cases answer with
  | ok current => rfl
  | error error => rfl

theorem storeObject_eq : storeObject library now object = (objectKind library).store now object := by
  unfold storeObject
  rw [updateMetadataObject_eq library]
  rfl

theorem storeRelation_eq : storeRelation library now relation = (relationKind library).store now relation := by
  unfold storeRelation
  rw [updateMetadataRelation_eq library]
  rfl

theorem removeObject_eq : removeObject object = (objectKind library).removeRow object := rfl

theorem removeRelation_eq : removeRelation relation = (relationKind library).removeRow relation := rfl

end Equations

namespace RowKind

variable {μ R I σ : Type} {kind : RowKind μ R I} {backend : Backend μ σ} {now : Timestamp} {row : R}
  {state : σ} {answer : Except Err R}

theorem run_orElseReport {α : Type} (error : Err) (op : TxOp μ α) (state : σ) :
    (orElseReport error op).run backend state =
      ((backend.exec op state).1.mapError fun _ => error, (backend.exec op state).2) := by
  simp only [orElseReport, Program.bind_eq, Program.run_bind, Program.run_attempt, Program.run_lift]
  cases (backend.exec op state).1 with
  | ok value => rfl
  | error failure => rfl

theorem updated_ok {current : R} (outcome : kind.updated now row answer = .ok current) :
    kind.content current = kind.content row ∧ kind.updatedAt current = some now := by
  cases answer with
  | ok stored =>
      cases outcome
      simp
  | error error =>
      simp only [updated] at outcome
      split at outcome
      · cases outcome
        simp
      · cases outcome

theorem updated_error {error : Err} (outcome : kind.updated now row answer = .error error) :
    answer = .error error ∧ error.isNotFound = false := by
  cases answer with
  | ok stored => cases outcome
  | error given =>
      simp only [updated] at outcome
      split at outcome
      · cases outcome
      · rename_i unexpected
        cases outcome
        exact ⟨rfl, Bool.eq_false_iff.mpr unexpected⟩

theorem found_of_updated {current : R}
    (outcome : kind.updated now row answer = .ok current) (tagged : kind.etag current ≠ []) :
    ∃ stored, answer = .ok stored := by
  cases answer with
  | ok stored => exact ⟨stored, rfl⟩
  | error error =>
      simp only [updated] at outcome
      split at outcome
      · cases outcome
        exact absurd (kind.etag_restamp _ _ _ _) tagged
      · cases outcome

theorem run_updateMetadata : (kind.updateMetadata now row).run backend state =
      (kind.updated now row (backend.exec (kind.read (kind.ident row)) state).1,
        (backend.exec (kind.read (kind.ident row)) state).2) := by
  simp only [updateMetadata, Program.bind_eq, Program.run_bind, Program.run_attempt,
    Program.run_lift]
  cases (backend.exec (kind.read (kind.ident row)) state).1 with
  | ok current => rfl
  | error error =>
      simp only [updated]
      split
      · rfl
      · rfl

theorem updateMetadata_ok {updated : R} {after : σ}
    (ran : (kind.updateMetadata now row).run backend state = (.ok updated, after)) :
    after = (backend.exec (kind.read (kind.ident row)) state).2 ∧ kind.ident updated = kind.ident row ∧
      ∀ current, (backend.exec (kind.read (kind.ident row)) state).1 = .ok current →
        kind.etag current ≠ [] → kind.etag updated = kind.etag current := by
  rw [run_updateMetadata] at ran
  obtain ⟨outcome, rfl⟩ := Prod.mk.inj ran
  refine ⟨rfl, kind.ident_eq_of_content (updated_ok outcome).1, ?_⟩
  intro current answered present
  rw [answered] at outcome
  cases outcome
  rw [etag_restamp, if_pos present]

theorem updatedAt_storeInPlace {left : R} {after : σ}
    (ran : (kind.storeInPlace now row).run backend state = (.ok left, after)) :
    kind.updatedAt left = some now := by
  obtain ⟨updated, middle, read, continued⟩ := Program.run_bind_ok ran
  rw [run_updateMetadata] at read
  obtain ⟨_, stamped⟩ := updated_ok (Prod.mk.inj read).1
  split at continued
  · cases continued
    exact stamped
  · obtain ⟨_, _, _, finished⟩ := Program.run_bind_ok continued
    cases finished
    rw [tagged, updatedAt_restamp, stamped]

section Storing

variable (reads : ∀ ident state, (backend.exec (kind.read ident) state).2 = state)

include reads

theorem run_store (now : Timestamp) (row : R) (state : σ) :
    (kind.store now row).run backend state =
      match kind.updated now row (backend.exec (kind.read (kind.ident row)) state).1 with
      | .error error => (.error error, state)
      | .ok updated =>
          if kind.hash row = kind.etag updated then (.ok ⟨⟩, state)
          else
            let answer := backend.exec (kind.write (kind.tagged updated (kind.hash row))) state
            ((answer.1.mapError fun _ => kind.setError).map fun _ => ⟨⟩, answer.2) := by
  simp only [store, Program.bind_eq, Program.run_bind, run_updateMetadata, reads]
  cases kind.updated now row (backend.exec (kind.read (kind.ident row)) state).1 with
  | error error => rfl
  | ok updated =>
      dsimp only
      split
      · rfl
      · rw [Program.run_bind, run_orElseReport]
        cases (backend.exec (kind.write (kind.tagged updated (kind.hash row))) state).1 with
        | ok value => rfl
        | error failure => rfl

/-- The row is found unreadable, or there with this content, or is written with its hash. -/
theorem store_cases (now : Timestamp) (row : R) (state : σ) :
    (∃ error, (backend.exec (kind.read (kind.ident row)) state).1 = .error error ∧
        error.isNotFound = false ∧ (kind.store now row).run backend state = (.error error, state)) ∨
      (∃ current, kind.updated now row (backend.exec (kind.read (kind.ident row)) state).1 =
          .ok current ∧ kind.etag current = kind.hash row ∧
        (kind.store now row).run backend state = (.ok ⟨⟩, state)) ∨
      ∃ written, kind.content written = kind.content row ∧ kind.etag written = kind.hash row ∧
        kind.updatedAt written = some now ∧ (kind.store now row).run backend state =
          (((backend.exec (kind.write written) state).1.mapError fun _ => kind.setError).map
            fun _ => ⟨⟩, (backend.exec (kind.write written) state).2) := by
  rw [run_store reads now row state]
  cases outcome : kind.updated now row (backend.exec (kind.read (kind.ident row)) state).1 with
  | error error =>
      obtain ⟨answered, unexpected⟩ := updated_error outcome
      exact .inl ⟨error, answered, unexpected, rfl⟩
  | ok current =>
      obtain ⟨content, stamped⟩ := updated_ok outcome
      dsimp only
      split
      · rename_i same
        exact .inr (.inl ⟨current, rfl, same.symm, rfl⟩)
      · refine .inr (.inr ⟨kind.tagged current (kind.hash row), ?_, ?_, ?_, rfl⟩)
        · rw [tagged, content_restamp, content]
        · rw [tagged, etag_restamp]
        · rw [tagged, updatedAt_restamp, stamped]

theorem store_keeps (property : σ → Prop)
    (writes : ∀ row state, property state → property (backend.exec (kind.write row) state).2)
    (holds : property state) : property ((kind.store now row).run backend state).2 := by
  rcases store_cases reads now row state with
    ⟨error, _, _, ran⟩ | ⟨current, _, _, ran⟩ | ⟨written, _, _, _, ran⟩
  · rw [ran]
    exact holds
  · rw [ran]
    exact holds
  · rw [ran]
    exact writes written state holds

theorem isOk_read_of_store
    (readsBack : ∀ {row state stored after}, backend.exec (kind.write row) state = (.ok stored, after) →
      (backend.exec (kind.read (kind.ident row)) after).1.isOk) (hashed : kind.hash row ≠ []) {after : σ}
    (ran : (kind.store now row).run backend state = (.ok ⟨⟩, after)) :
    (backend.exec (kind.read (kind.ident row)) after).1.isOk := by
  rcases store_cases reads now row state with
    ⟨error, _, _, stored⟩ | ⟨current, found, tagged, stored⟩ | ⟨written, content, _, _, stored⟩
  · cases stored.symm.trans ran
  · cases stored.symm.trans ran
    obtain ⟨answer, answered⟩ := found_of_updated found (tagged ▸ hashed)
    rw [answered]
    rfl
  · rw [stored] at ran
    cases outcome : backend.exec (kind.write written) state with
    | mk answer next =>
        rw [outcome] at ran
        cases answer with
        | error error => cases ran
        | ok value =>
            cases ran
            rw [← kind.ident_eq_of_content content]
            exact readsBack outcome

end Storing

theorem keeps_validated {α : Type} (property : σ → Prop) {validated : Except Err α}
    {body : α → Tx μ PUnit} (holds : property state)
    (keeps : ∀ value, property ((body value).run backend state).2) :
    property ((Program.done validated >>= body).run backend state).2 := by
  cases validated with
  | error error => exact holds
  | ok value => exact keeps value

end RowKind

end Eamerald.Directory
