import Eamerald.Directory.RoundTrip
import Eamerald.Directory.Stamping

/-! What a set call answers. The response is the request with the metadata that a write would
give it, and it is returned also when nothing is written because the stored row has its hash. -/

set_option autoImplicit false

namespace Eamerald.Directory

open Foundation Store

namespace RowKind

variable {μ σ R I : Type} (kind : RowKind μ R I) (backend : Backend μ σ)

def Reads (state : σ) (ident : I) (row : R) : Prop :=
  (backend.exec (kind.read ident) state).1 = .ok row

/-- A stored row with the hash of the request is the request as it would be written now. -/
def Anticipated (now : Timestamp) (row : R) (state : σ) : Prop :=
  ∀ old, kind.Reads backend state (kind.ident row) old → kind.Tagged row old →
    old = kind.stamped now row (some old)

end RowKind

section Tables

variable {μ σ R I Δ κ : Type} [DecidableEq κ] {backend : Backend μ σ} {kind : RowKind μ R I}
  {scan : TxOp μ (Iterator R)} {sound : σ → Prop} {data : σ → Δ} {part : Part Δ κ R}
  (table : Table backend kind scan sound data part) {state after : σ} {now : Timestamp} {row response : R}

namespace Table

theorem reads_iff (holds : sound state) (ident : I) (row : R) :
    kind.Reads backend state ident row ↔ part.get (data state) (table.key ident) = some row := by
  rw [RowKind.Reads, table.read holds]
  cases part.get (data state) (table.key ident) <;> simp

theorem current_of_tagged (hashed : kind.hash row ≠ []) {old : R} (tagged : kind.Tagged row old) :
    current kind now row (some old) = kind.stamped now row (some old) := by
  have same : kind.hash row = kind.etag (current kind now row (some old)) :=
    (etag_current_eq_hash hashed).mpr ⟨old, rfl, tagged⟩
  simp only [current, RowKind.etag_restamp] at same
  simp only [current, RowKind.stamped, ← same]

variable (stamps : ∀ row created updated tag, kind.createdAt (kind.restamp row created updated tag) = created)

include stamps

/-- A set that succeeds answers with the row as it would be written. It is written unless the
stored row has its hash. -/
theorem optimisticSet_response (mismatch : R → Err) (ifMatch : GoString) (holds : sound state)
    (hashed : kind.hash row ≠ [])
    (ran : (Concurrency.optimisticSet (kind.updateMetadata now row) kind.etag mismatch
      (fun updated => kind.write (kind.tagged updated (kind.hash row))) (kind.hash row) ifMatch).run
        backend state = (.ok response, after)) :
    response = kind.stamped now row (part.get (data state) (table.key (kind.ident row))) ∧ sound after ∧
      ((∃ old, part.get (data state) (table.key (kind.ident row)) = some old ∧ kind.Tagged row old ∧
          after = state) ∨
        (∀ old, part.get (data state) (table.key (kind.ident row)) = some old → ¬ kind.Tagged row old) ∧
          part.get (data after) (table.key (kind.ident row)) = some response) := by
  simp only [Concurrency.optimisticSet, Program.bind_eq, Program.run_bind,
    table.run_updateMetadata now row holds] at ran
  split at ran
  · cases ran
  · split at ran
    · next same =>
        obtain ⟨old, found, tagged⟩ := (etag_current_eq_hash hashed).mp same
        cases ran
        rw [found]
        exact ⟨current_of_tagged hashed tagged, holds, .inl ⟨old, rfl, tagged, rfl⟩⟩
    · next differs =>
        rw [tagged_current stamps, Program.run_lift] at ran
        have untagged (old : R) (found : part.get (data state) (table.key (kind.ident row)) = some old)
            (tagged : kind.Tagged row old) : False :=
          differs ((etag_current_eq_hash hashed).mpr ⟨old, found, tagged⟩)
        have ident : kind.ident (kind.stamped now row (part.get (data state)
            (table.key (kind.ident row)))) = kind.ident row := kind.ident_restamp ..
        by_cases fits : table.fits (kind.ident row)
        · obtain ⟨written, done, kept, changed⟩ := table.write holds (ident.symm ▸ fits)
          cases ran.symm.trans done
          refine ⟨rfl, kept, .inr ⟨untagged, ?_⟩⟩
          rw [changed, part.get_set, ident, Function.update_self]
        · obtain ⟨error, failed⟩ := table.refuse holds (ident.symm ▸ fits)
          cases ran.symm.trans failed

include table in
/-- The response of a set that succeeds is what is stored afterwards exactly if it was stored
before or is written now. -/
theorem optimisticSet_reports_iff (mismatch : R → Err) (ifMatch : GoString) (holds : sound state)
    (hashed : kind.hash row ≠ [])
    (ran : (Concurrency.optimisticSet (kind.updateMetadata now row) kind.etag mismatch
      (fun updated => kind.write (kind.tagged updated (kind.hash row))) (kind.hash row) ifMatch).run
        backend state = (.ok response, after)) :
    kind.Reads backend after (kind.ident row) response ↔ kind.Anticipated backend now row state := by
  obtain ⟨rfl, kept, outcome⟩ := table.optimisticSet_response stamps mismatch ifMatch holds hashed ran
  unfold RowKind.Anticipated
  simp only [table.reads_iff kept, table.reads_iff holds]
  rcases outcome with ⟨old, found, tagged, rfl⟩ | ⟨untagged, written⟩
  · rw [found]
    constructor
    · intro same stored here _
      cases here
      exact Option.some.inj same
    · intro anticipated
      exact congrArg some (anticipated old rfl tagged)
  · refine iff_of_true written fun old found tagged => ?_
    exact absurd tagged (untagged old found)

end Table

end Tables

section Calls

variable {ω μ : Type} [Wire ω μ] {library : Library μ}

/-- The response of a set call that succeeds is the row that is stored under its identifier
afterwards, with all its fields, exactly if no row with the hash of the request was stored before,
or one that is as the request would be written at the time of the call. -/
theorem set_reports_stored_iff (hashed : ∀ entry : Entry, entry.hash library ≠ []) (engine : Engine ω)
    {state : engine.State} (sound : (engine.layout library).sound state) (model : μ)
    (ifMatch : GoString) (now : Timestamp) :
    (∀ object response after,
      update engine.backend (setObject library model ifMatch now object) state = (.ok response, after) →
        ((objectKind library).Reads engine.backend after object.ident response ↔
          (objectKind library).Anticipated engine.backend now object state)) ∧
    ∀ relation response after,
      update engine.backend (setRelation library model ifMatch now relation) state =
          (.ok response, after) →
        ((relationKind library).Reads engine.backend after relation.ident response ↔
          (relationKind library).Anticipated engine.backend now relation state) := by
  constructor
  · intro object response after succeeded
    obtain ⟨etag, passed, ran⟩ := Program.run_check_ok (Program.commit_ok.mp succeeded)
    obtain ⟨_, _, rest⟩ := except_bind_eq_ok.mp passed
    obtain ⟨_, _, same⟩ := except_bind_eq_ok.mp rest
    cases same
    rw [Concurrency.setObjectTx_eq, updateMetadataObject_eq library] at ran
    exact (engine.layout library).objects.optimisticSet_reports_iff (fun _ _ _ _ => rfl) objectMismatch
      ifMatch sound (hashed (.object object)) ran
  · intro relation response after succeeded
    obtain ⟨etag, passed, ran⟩ := Program.run_check_ok (Program.commit_ok.mp succeeded)
    obtain ⟨_, _, rest⟩ := except_bind_eq_ok.mp passed
    obtain ⟨_, _, same⟩ := except_bind_eq_ok.mp rest
    cases same
    rw [Concurrency.setRelationTx_eq, updateMetadataRelation_eq library] at ran
    exact (engine.layout library).relations.optimisticSet_reports_iff (fun _ _ _ _ => rfl)
      relationMismatch ifMatch sound (hashed (.relation relation)) ran

end Calls

section Documents

def documentAt (seconds : Int) : Tx Simple.Model Object :=
  setObject Simple.library Simple.viewersModel [] ⟨seconds, 0⟩ (document "d1")

def viewerAt (seconds : Int) : Tx Simple.Model Relation :=
  setRelation Simple.library Simple.viewersModel [] ⟨seconds, 0⟩ (Simple.viewer "d1" "u1")

theorem new_document_reported :
    ∃ response after, update boltEngine.backend (documentAt 1) boltEngine.empty =
        (.ok response, after) ∧
      (objectKind Simple.library).Reads boltEngine.backend after (document "d1").ident response := by
  have succeeds : (update boltEngine.backend (documentAt 1) boltEngine.empty).1.isOk = true := by
    decide +kernel
  cases ran : update boltEngine.backend (documentAt 1) boltEngine.empty with
  | mk outcome after =>
      cases outcome with
      | error error =>
          rw [ran] at succeeds
          cases succeeds
      | ok response =>
          have reports := (set_reports_stored_iff simple_hashed boltEngine boltEngine.sound_empty
            Simple.viewersModel [] ⟨1, 0⟩).1 (document "d1") response after ran
          refine ⟨response, after, rfl, reports.mpr fun old stored _ => ?_⟩
          have missing : ((boltEngine.backend (μ := Simple.Model)).exec
              (.getObject (document "d1").type (document "d1").id) boltEngine.empty).1.isOk = false := by
            decide +kernel
          have found : ((boltEngine.backend (μ := Simple.Model)).exec
              (.getObject (document "d1").type (document "d1").id) boltEngine.empty).1 = .ok old := stored
          rw [found] at missing
          cases missing

/-- The document and its viewer are set at time 1 and once more at time 2. The second responses
are said to be updated at time 2, and what is stored was updated at time 1. -/
theorem unchanged_rows_misreported :
    let objects := (update boltEngine.backend (documentAt 1) boltEngine.empty).2
    let object := update boltEngine.backend (documentAt 2) objects
    let relations := (update boltEngine.backend (viewerAt 1) boltEngine.empty).2
    let relation := update boltEngine.backend (viewerAt 2) relations
    (object.1.toOption.map (·.updatedAt) = some (some ⟨2, 0⟩) ∧
        ((boltEngine.backend (μ := Simple.Model)).exec (.getObject (document "d1").type (document "d1").id)
          object.2).1.toOption.map (·.updatedAt) = some (some ⟨1, 0⟩)) ∧
      relation.1.toOption.map (·.updatedAt) = some (some ⟨2, 0⟩) ∧
        ((boltEngine.backend (μ := Simple.Model)).exec
          (.getRelationExact (Simple.viewer "d1" "u1").ident) relation.2).1.toOption.map (·.updatedAt) =
            some (some ⟨1, 0⟩) := by
  decide +kernel

end Documents

end Eamerald.Directory
