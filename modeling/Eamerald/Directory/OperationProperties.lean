import Eamerald.Directory.PolicyProperties
import Eamerald.Directory.Simple
import Eamerald.Bolt.Agreement

/-! Every write path keeps the two relation indexes in agreement, as long as the
ids it is given contain no bar. -/

set_option autoImplicit false

namespace Eamerald.Directory

open Foundation Store Bolt

/-- The validators accept a relation only under names without separators. -/
structure PlainRelations {μ : Type} (library : Library μ) : Prop where
  setRequest : ∀ relation, library.setRelationRequest relation = .ok () → ModelNames relation.ident
  deleteRequest : ∀ ident, library.deleteRelationRequest ident = .ok () → ModelNames ident
  message : ∀ relation, library.relation relation = .ok () → ModelNames relation.ident

section Admission

variable {μ : Type} {library : Library μ}

theorem admitsObject_storableOnly (model : μ) (request : Option Object) :
    AdmitsObject library storableOnly model request := fun _ _ _ _ => trivial

theorem admitsRelation_storableOnly (plain : PlainRelations library) (model : μ) {request : Option Relation}
    (free : ∀ relation, request = some relation → barFree relation.objectId ∧ barFree relation.subjectId) :
    AdmitsRelation library storableOnly model request := by
  intro relation present valid _
  obtain ⟨objectFree, subjectFree⟩ := free relation present
  have storable : Storable relation.ident := ⟨plain.message _ valid, objectFree, subjectFree⟩
  exact ⟨storable, storable⟩

theorem admitsMessage_storableOnly (plain : PlainRelations library) (model : μ)
    {message : ImportMessage} (free : BarFreeMessage message) :
    AdmitsMessage library storableOnly model message := by
  cases message with
  | object object => exact admitsObject_storableOnly model object
  | relation relation =>
      refine admitsRelation_storableOnly plain model ?_
      rintro relation rfl
      exact free
  | unset => exact trivial

theorem admitsRow_storableOnly (plain : PlainRelations library) (model : μ)
    {row : Datasync.Row} (free : BarFreeRow row) : AdmitsRow library storableOnly model row := by
  cases row with
  | object object => exact admitsObject_storableOnly model object
  | relation relation =>
      refine admitsRelation_storableOnly plain model ?_
      rintro relation rfl
      exact free

theorem Operation.admits_storableOnly (plain : PlainRelations library) {operation : Operation μ}
    (free : operation.BarFree) : operation.Admits library storableOnly := by
  cases operation with
  | setObject model ifMatch now object => exact fun _ => trivial
  | deleteObject | diff | setManifest | syncManifest | deleteManifest => exact trivial
  | setRelation model ifMatch now relation =>
      exact fun valid => ⟨plain.setRequest relation valid, free.1, free.2⟩
  | deleteRelation model ifMatch now ident =>
      exact fun valid => ⟨plain.deleteRequest ident valid, free.1, free.2⟩
  | importStream requests ending =>
      exact fun received member => admitsMessage_storableOnly plain received.model (free received member)
  | subscriber rows =>
      exact fun applied member => admitsRow_storableOnly plain applied.model (free applied member)

end Admission

section Runs

variable {ω μ : Type} [Wire ω μ] {library : Library μ}

theorem agree_runOperations (plain : PlainRelations library) {operations : List (Operation μ)}
    (free : ∀ operation ∈ operations, operation.BarFree) {db : BoltDB ω} (agree : Agree db) :
    Agree (runOperations library backend operations db) := by
  induction operations generalizing db with
  | nil => exact agree
  | cons operation rest ih =>
      refine ih (fun later member => free later (List.mem_cons_of_mem operation member)) ?_
      have admits := Operation.admits_storableOnly plain (free operation List.mem_cons_self)
      exact (Operation.within admits).commit backend_honours_storableOnly agree

/-- After any run of write calls in which no id contains a bar, the two indexes hold
the same finite set of relations, each under the keys of its own fields and with
the same encoding, and nothing else. -/
theorem indexes_agree_after_run (plain : PlainRelations library) (operations : List (Operation μ))
    (free : ∀ operation ∈ operations, operation.BarFree) :
    ∃ relations, Mirrors (runOperations library backend operations (emptyDB : BoltDB ω))
      relations := by
  obtain ⟨relations, mirrors, _⟩ := agree_runOperations plain free (agree_emptyDB (ω := ω))
  exact ⟨relations, mirrors⟩

theorem simple_plainRelations : PlainRelations Simple.library := by
  have plainNames {ident : RelationIdentifier} {message : String}
      (accepted : Simple.require (Simple.names ident) message = .ok ()) : ModelNames ident := by
    unfold Simple.require at accepted
    split at accepted
    · rename_i checked
      simp only [Simple.names, Simple.plainName, Bool.and_eq_true, decide_eq_true_eq] at checked
      exact ⟨checked.1.1.1, checked.1.1.2, checked.1.2, checked.2⟩
    · cases accepted
  exact ⟨fun _ => plainNames, fun _ => plainNames, fun _ => plainNames⟩

theorem indexes_agree_after_viewers :
    ∃ relations, Mirrors (runOperations Simple.library backend
      [.setRelation Simple.viewersModel [] ⟨1, 0⟩ (Simple.viewer "d1" "u1"),
        .setRelation Simple.viewersModel [] ⟨2, 0⟩ (Simple.viewer "d2" "u1"),
        .deleteObject Simple.viewersModel [] ⟨3, 0⟩ ⟨"doc".toList, "d1".toList, true⟩]
      (emptyDB : BoltDB (Blob Simple.Model))) relations := by
  refine indexes_agree_after_run simple_plainRelations _ ?_
  simp [Operation.BarFree, barFree, Simple.viewer]

end Runs

end Eamerald.Directory
