import Eamerald.Directory.Operations
import Eamerald.Store.Policy

/-! Write calls keep to a policy on rows as soon as the validators only let rows
through that the policy admits. -/

set_option autoImplicit false

namespace Eamerald.Directory

open Foundation Store

variable {μ : Type} {library : Library μ} {policy : RowPolicy} {relation : Relation}
  {object : Object} {α : Type} (now : Timestamp)

section Writer

theorem updateMetadataObject_same (object : Object) :
    (updateMetadataObject now object : Tx μ Object).Meets policy.contract fun outcome =>
      ∀ updated, outcome = .ok updated → updated.type = object.type ∧ updated.id = object.id := by
  refine Program.Meets.bind (Program.Within.lift trivial).attempt ?_ ?_
  · intro answer _
    cases answer with
    | ok current =>
        intro updated same
        cases same
        exact ⟨rfl, rfl⟩
    | error error =>
        dsimp only
        split
        · intro updated same
          cases same
          exact ⟨rfl, rfl⟩
        · intro updated same
          cases same
  · intro error _ updated same
    cases same

theorem updateMetadataRelation_same (relation : Relation) :
    (updateMetadataRelation now relation : Tx μ Relation).Meets policy.contract fun outcome =>
      ∀ updated, outcome = .ok updated → updated.ident = relation.ident := by
  refine Program.Meets.bind (Program.Within.lift trivial).attempt ?_ ?_
  · intro answer _
    cases answer with
    | ok current =>
        intro updated same
        cases same
        rfl
    | error error =>
        dsimp only
        split
        · intro updated same
          cases same
          rfl
        · intro updated same
          cases same
  · intro error _ updated same
    cases same

theorem within_setObjectTx (admitted : policy.object object.type object.id)
    (etag ifMatch : GoString) (now : Timestamp) :
    (setObjectTx etag ifMatch now object : Tx μ Object).Within policy.contract := by
  refine Program.Meets.bind (updateMetadataObject_same now object) ?_ fun _ _ => trivial
  intro updated same
  obtain ⟨sameType, sameId⟩ := same updated rfl
  dsimp only
  split
  · exact trivial
  · split
    · exact trivial
    · refine Program.Within.lift ?_
      change policy.object updated.type updated.id
      rw [sameType, sameId]
      exact admitted

theorem within_setRelationTx (admitted : policy.relation relation.ident)
    (etag ifMatch : GoString) (now : Timestamp) :
    (setRelationTx etag ifMatch now relation : Tx μ Relation).Within policy.contract := by
  refine Program.Meets.bind (updateMetadataRelation_same now relation) ?_ fun _ _ => trivial
  intro updated same
  dsimp only
  split
  · exact trivial
  · split
    · exact trivial
    · refine Program.Within.lift ?_
      change policy.relation updated.ident
      rw [same updated rfl]
      exact admitted

theorem within_relationsByObject (direction : Direction) (objectType objectId : GoString) :
    (relationsByObject direction objectType objectId : Tx μ (List Relation)).Meets policy.contract
      fun outcome => ∀ found, outcome = .ok found → ∀ relation ∈ found, policy.removable relation.ident := by
  refine Program.Meets.bind (Program.Meets.lift trivial) ?_ ?_
  · intro iterator ensured found same
    cases same
    exact ensured iterator rfl
  · intro error _ found same
    cases same

theorem within_deleteRelationsWithPrefix (direction : Direction) (objectType objectId : GoString) :
    (deleteRelationsWithPrefix direction objectType objectId : Tx μ PUnit).Within policy.contract := by
  refine Program.Meets.bind (within_relationsByObject direction objectType objectId) ?_
    fun _ _ => trivial
  intro found removable
  refine Program.Meets.each fun relation member => ?_
  exact Program.Within.lift (removable found rfl relation member)

theorem within_deleteObject (model : μ) (ifMatch : GoString) (now : Timestamp) (request : DeleteObjectRequest) :
    (deleteObject library model ifMatch now request).Within policy.contract := by
  have removal : (do
      Program.lift (TxOp.deleteObject (μ := μ) request.objectType request.objectId)
      if request.withRelations then
        deleteRelationsWithPrefix .bySubject request.objectType request.objectId
        deleteRelationsWithPrefix .byObject request.objectType request.objectId :
      Tx μ Unit).Within policy.contract := by
    refine Program.Within.bind (Program.Within.lift trivial) fun _ => ?_
    split
    · exact Program.Within.bind (within_deleteRelationsWithPrefix _ _ _) fun _ =>
        within_deleteRelationsWithPrefix _ _ _
    · exact trivial
  refine Program.Within.bind (.done _) fun _ => Program.Within.bind (.done _) fun _ => ?_
  dsimp only
  split
  · refine Program.Within.bind (updateMetadataObject_same now _).within fun updated => ?_
    split
    · exact trivial
    · exact removal
  · exact removal

theorem within_deleteRelation (model : μ) (ifMatch : GoString) (now : Timestamp) {ident : RelationIdentifier}
    (admitted : library.deleteRelationRequest ident = .ok () → policy.removable ident) :
    (deleteRelation library model ifMatch now ident).Within policy.contract := by
  unfold deleteRelation
  cases valid : library.deleteRelationRequest ident with
  | error error => exact trivial
  | ok _ =>
      have removal : (Program.lift (TxOp.deleteRelation ident) : Tx μ Unit).Within
          policy.contract := Program.Within.lift (admitted valid)
      refine Program.Within.bind (.done _) fun _ => Program.Within.bind (.done _) fun _ => ?_
      dsimp only
      split
      · refine Program.Within.bind (updateMetadataRelation_same now _).within fun updated => ?_
        split
        · exact trivial
        · exact removal
      · exact removal

end Writer

section Handlers

variable {model : μ}

theorem within_orElseReport (error : Err) {op : TxOp μ α}
    (allowed : policy.contract.requires op) : (orElseReport error op).Within policy.contract := by
  refine Program.Within.bind (Program.Within.lift allowed).attempt fun answer => ?_
  cases answer <;> exact trivial

theorem within_storeObject (admitted : policy.object object.type object.id) :
    (storeObject library now object).Within policy.contract := by
  refine Program.Meets.bind (updateMetadataObject_same now object) ?_ fun _ _ => trivial
  intro updated same
  obtain ⟨sameType, sameId⟩ := same updated rfl
  split
  · exact trivial
  · refine Program.Within.bind (within_orElseReport _ ?_) fun _ => trivial
    change policy.object updated.type updated.id
    rw [sameType, sameId]
    exact admitted

theorem within_storeRelation (admitted : policy.relation relation.ident) :
    (storeRelation library now relation).Within policy.contract := by
  refine Program.Meets.bind (updateMetadataRelation_same now relation) ?_ fun _ _ => trivial
  intro updated same
  split
  · exact trivial
  · refine Program.Within.bind (within_orElseReport _ ?_) fun _ => trivial
    change policy.relation updated.ident
    rw [same updated rfl]
    exact admitted

theorem within_removeObject (object : Object) : (removeObject object : Tx μ PUnit).Within policy.contract :=
  within_orElseReport _ trivial

theorem within_removeRelation (removable : policy.removable relation.ident) :
    (removeRelation relation : Tx μ PUnit).Within policy.contract :=
  within_orElseReport _ removable

variable (policy library) in
/-- The validators let an object through only if the policy admits it. -/
def AdmitsObject (model : μ) (request : Option Object) : Prop :=
  ∀ object, request = some object → library.object object = .ok () →
    library.validateObject model object = .ok () → policy.object object.type object.id

variable (policy library) in
def AdmitsRelation (model : μ) (request : Option Relation) : Prop :=
  ∀ relation, request = some relation → library.relation relation = .ok () →
    library.validateRelation model relation.ident = .ok () →
    policy.relation relation.ident ∧ policy.removable relation.ident

theorem onError_ok {replace : Err → Err} {outcome : Except Err α} {value : α} :
    onError replace outcome = .ok value ↔ outcome = .ok value := by
  cases outcome <;> simp [onError]

theorem admitted_of_validateImportObject {request : Option Object}
    (admits : AdmitsObject library policy model request)
    (passed : validateImportObject library model request = .ok object) :
    policy.object object.type object.id := by
  cases request with
  | none => cases passed
  | some given =>
      obtain ⟨_, valid, rest⟩ := except_bind_eq_ok.mp passed
      obtain ⟨_, declared, same⟩ := except_bind_eq_ok.mp rest
      cases same
      exact admits _ rfl valid (onError_ok.mp declared)

theorem admitted_of_validateImportRelation {request : Option Relation} (admits : AdmitsRelation library policy model request)
    (passed : validateImportRelation library model request = .ok relation) :
    policy.relation relation.ident ∧ policy.removable relation.ident := by
  cases request with
  | none => cases passed
  | some given =>
      obtain ⟨_, valid, rest⟩ := except_bind_eq_ok.mp passed
      obtain ⟨_, declared, same⟩ := except_bind_eq_ok.mp rest
      cases same
      exact admits _ rfl valid (onError_ok.mp declared)

theorem admitted_of_validateObject {request : Option Object}
    (admits : AdmitsObject library policy model request)
    (passed : Datasync.validateObject library model request = .ok object) :
    policy.object object.type object.id := by
  cases request with
  | none => cases passed
  | some given =>
      obtain ⟨_, valid, rest⟩ := except_bind_eq_ok.mp passed
      obtain ⟨_, declared, same⟩ := except_bind_eq_ok.mp rest
      cases same
      exact admits _ rfl valid declared

theorem admitted_of_validateRelation {request : Option Relation}
    (admits : AdmitsRelation library policy model request)
    (passed : Datasync.validateRelation library model request = .ok relation) :
    policy.relation relation.ident ∧ policy.removable relation.ident := by
  cases request with
  | none => cases passed
  | some given =>
      obtain ⟨_, valid, rest⟩ := except_bind_eq_ok.mp passed
      obtain ⟨_, declared, same⟩ := except_bind_eq_ok.mp rest
      cases same
      exact admits _ rfl valid declared

theorem within_validated {validated : Except Err α} {admitted : α → Prop}
    (sound : ∀ value, validated = .ok value → admitted value) {body : α → Tx μ PUnit}
    (within : ∀ value, admitted value → (body value).Within policy.contract) :
    (Program.done validated >>= body).Within policy.contract := by
  cases validated with
  | error error => exact trivial
  | ok value => exact within value (sound value rfl)

variable (policy library) in
def AdmitsMessage (model : μ) : ImportMessage → Prop
  | .object object => AdmitsObject library policy model object
  | .relation relation => AdmitsRelation library policy model relation
  | .unset => True

theorem within_importHandler (model : μ) (now : Timestamp) {request : ImportRequest}
    (admits : AdmitsMessage library policy model request.message) :
    (importHandler library model now request).Within policy.contract := by
  obtain ⟨opCode, message⟩ := request
  cases message with
  | unset => exact trivial
  | object object =>
      have sound : ∀ found, validateImportObject library model object = .ok found →
          policy.object found.type found.id := fun _ => admitted_of_validateImportObject admits
      cases opCode with
      | set => exact within_validated sound fun _ => within_storeObject now
      | delete => exact within_validated sound fun found _ => within_removeObject found
      | deleteWithRelations =>
          refine within_validated sound fun found _ => ?_
          refine Program.Within.bind (within_removeObject found) fun _ => ?_
          exact Program.Within.bind (within_deleteRelationsWithPrefix _ _ _) fun _ =>
            within_deleteRelationsWithPrefix _ _ _
      | other code => exact trivial
  | relation relation =>
      have sound : ∀ found, validateImportRelation library model relation = .ok found →
          policy.relation found.ident ∧ policy.removable found.ident :=
        fun _ => admitted_of_validateImportRelation admits
      cases opCode with
      | set => exact within_validated sound fun _ admitted => within_storeRelation now admitted.1
      | delete => exact within_validated sound fun _ admitted => within_removeRelation admitted.2
      | deleteWithRelations => exact trivial
      | other code => exact trivial

theorem within_importRequests (requests : List (Received μ)) (admits : ∀ received ∈ requests,
      AdmitsMessage library policy received.model received.request.message)
    (counters : Counters) (statuses : List ImportStatus) :
    (importRequests library requests counters statuses).Within policy.contract := by
  induction requests generalizing counters statuses with
  | nil => exact trivial
  | cons received rest ih =>
      refine Program.Within.bind (within_importHandler received.model received.now
        (admits received List.mem_cons_self)).attempt fun outcome => ?_
      exact ih (fun later member => admits later (List.mem_cons_of_mem received member)) _ _

theorem within_importStream (requests : List (Received μ)) (admits : ∀ received ∈ requests,
      AdmitsMessage library policy received.model received.request.message) (ending : StreamEnd) :
    (importStream library requests ending).Within policy.contract := by
  refine Program.Within.bind (within_importRequests requests admits {} []) fun result => ?_
  cases ending with
  | done => exact trivial
  | eof sent => exact Program.Within.bind (.done _) fun _ => trivial

end Handlers

section Datasync

variable (policy library) in
def AdmitsRow (model : μ) : Datasync.Row → Prop
  | .object object => AdmitsObject library policy model object
  | .relation relation => AdmitsRelation library policy model relation

theorem within_subscriber (rows : List (Datasync.Applied μ))
    (admits : ∀ applied ∈ rows, AdmitsRow library policy applied.model applied.row) :
    (Datasync.subscriber library rows).Within policy.contract := by
  refine Program.Meets.each fun applied member => ?_
  refine Program.Within.bind (Program.Within.attempt ?_) fun _ => trivial
  have rowAdmits := admits applied member
  obtain ⟨model, now, row⟩ := applied
  cases row with
  | object object =>
      exact within_validated (fun _ => admitted_of_validateObject rowAdmits)
        fun _ => within_storeObject now
  | relation relation =>
      exact within_validated (fun _ => admitted_of_validateRelation rowAdmits)
        fun _ admitted => within_storeRelation now admitted.1

theorem within_diff (model : μ) (exported : GoString → Bool) :
    (Datasync.diff library model exported).Within policy.contract := by
  refine Program.Within.bind ?_ fun _ => ?_
  · refine Program.Within.bind (Program.Within.lift trivial) fun iterator => ?_
    have deletions : (Program.each (iterator.values.filter fun object =>
        !exported (Datasync.objectRowKey object)) fun object => do
          let _ ← (Datasync.objectDeleteHandler library model (some object)).attempt :
        Tx μ PUnit).Within policy.contract := by
      refine Program.Meets.each fun object _ => ?_
      refine Program.Within.bind (Program.Within.attempt ?_) fun _ => trivial
      exact Program.Within.bind (.done _) fun _ => within_removeObject _
    cases iterator.closeError with
    | none => exact deletions
    | some error => exact trivial
  · refine Program.Meets.bind (Program.Meets.lift trivial) ?_ fun _ _ => trivial
    intro iterator ensured
    have deletions : (Program.each (iterator.values.filter fun relation =>
        !exported (Datasync.relationRowKey relation)) fun relation => do
          let _ ← (Datasync.relationDeleteHandler library model (some relation)).attempt :
        Tx μ PUnit).Within policy.contract := by
      refine Program.Meets.each fun relation member => ?_
      refine Program.Within.bind (Program.Within.attempt ?_) fun _ => trivial
      have removable := ensured iterator rfl relation (List.mem_of_mem_filter member)
      refine within_validated ?_ fun _ known => within_removeRelation known
      intro found passed
      obtain ⟨_, _, rest⟩ := except_bind_eq_ok.mp passed
      obtain ⟨_, _, same⟩ := except_bind_eq_ok.mp rest
      cases same
      exact removable
    cases iterator.closeError with
    | none => exact deletions
    | some error => exact trivial

end Datasync

section Manifest

theorem within_reporting (context : String) {program : Tx μ α} (within : program.Within policy.contract) :
    (reporting library context program).Within policy.contract := by
  refine Program.Within.bind within.attempt fun outcome => ?_
  cases outcome <;> exact trivial

theorem within_setManifestTx (allowed : policy.manifest) (cached next : μ) (metadata : Metadata)
    (data : Bytes) : (setManifestTx library cached next metadata data).Within policy.contract := by
  have counting : (calculateStats : Tx μ Stats).Within policy.contract := by
    refine Program.Within.bind ?_ fun stats => ?_
    · exact Program.Within.bind (Program.Within.lift trivial) fun _ => trivial
    · exact Program.Within.bind (Program.Within.lift trivial) fun _ => trivial
  refine Program.Within.bind (within_reporting _ counting) fun stats => ?_
  refine Program.Within.bind (.done _) fun _ => ?_
  refine Program.Within.bind (within_reporting _ (Program.Within.lift allowed)) fun _ => ?_
  exact within_reporting _ (Program.Within.lift allowed)

theorem within_getManifest : (getManifest : Tx μ (Metadata × Body)).Within policy.contract := by
  have existence : (manifestExists : Tx μ Bool).Within policy.contract := by
    refine Program.Within.bind (Program.Within.lift trivial).attempt fun answer => ?_
    cases answer <;> exact trivial
  refine Program.Within.bind existence fun found => ?_
  dsimp only
  split
  · exact trivial
  · refine Program.Within.bind (Program.Within.lift trivial) fun _ => ?_
    exact Program.Within.bind (Program.Within.lift trivial) fun _ => trivial

theorem within_ifMatchStored (ifMatch : GoString) :
    (ifMatchStored ifMatch : Tx μ Bool).Within policy.contract := by
  unfold ifMatchStored
  split
  · exact trivial
  · refine Program.Within.bind within_getManifest.attempt fun outcome => ?_
    cases outcome with
    | error error => exact trivial
    | ok stored =>
        dsimp only
        split <;> exact trivial

theorem within_deleteManifestTx (allowed : policy.manifest) (ifMatch : GoString) (empty : μ)
    (metadata : Metadata) : (deleteManifestTx library ifMatch empty metadata).Within policy.contract := by
  refine Program.Within.bind (within_ifMatchStored ifMatch) fun proceed => ?_
  split
  · refine Program.Within.bind (within_reporting _ (Program.Within.lift allowed)) fun _ => ?_
    refine Program.Within.bind (within_reporting _ (Program.Within.lift allowed)) fun _ => ?_
    exact within_reporting _ (Program.Within.lift allowed)
  · exact trivial

end Manifest

section Operations

variable (policy library) in
/-- The validators let the rows of an operation through only if the policy admits them. -/
def Operation.Admits : Operation μ → Prop
  | .setObject _ _ _ object => library.setObjectRequest object = .ok () →
      policy.object object.type object.id
  | .setRelation _ _ _ relation => library.setRelationRequest relation = .ok () →
      policy.relation relation.ident
  | .deleteRelation _ _ _ ident => library.deleteRelationRequest ident = .ok () → policy.removable ident
  | .importStream requests _ => ∀ received ∈ requests,
      AdmitsMessage library policy received.model received.request.message
  | .subscriber rows => ∀ applied ∈ rows, AdmitsRow library policy applied.model applied.row
  | .deleteObject _ _ _ _ | .diff _ _ => True
  | .setManifest _ _ _ | .syncManifest _ _ _ | .deleteManifest _ _ => policy.manifest

theorem within_setObject (model : μ) (ifMatch : GoString) (now : Timestamp)
    (admitted : library.setObjectRequest object = .ok () → policy.object object.type object.id) :
    (setObject library model ifMatch now object).Within policy.contract := by
  unfold setObject validateSetObject
  cases valid : library.setObjectRequest object with
  | error error => exact trivial
  | ok _ =>
      cases declared : library.validateObject model object with
      | error error => exact trivial
      | ok _ => exact within_setObjectTx (admitted valid) _ _ _

theorem within_setRelation (model : μ) (ifMatch : GoString) (now : Timestamp)
    (admitted : library.setRelationRequest relation = .ok () → policy.relation relation.ident) :
    (setRelation library model ifMatch now relation).Within policy.contract := by
  unfold setRelation validateSetRelation
  cases valid : library.setRelationRequest relation with
  | error error => exact trivial
  | ok _ =>
      cases declared : library.validateRelation model relation.ident with
      | error error => exact trivial
      | ok _ => exact within_setRelationTx (admitted valid) _ _ _

theorem Operation.within {operation : Operation μ} (admits : operation.Admits library policy) :
    (operation.program library).Within policy.contract := by
  cases operation with
  | setObject model ifMatch now object =>
      exact Program.Within.bind (within_setObject model ifMatch now admits) fun _ => trivial
  | deleteObject model ifMatch now request => exact within_deleteObject model ifMatch now request
  | setRelation model ifMatch now relation =>
      exact Program.Within.bind (within_setRelation model ifMatch now admits) fun _ => trivial
  | deleteRelation model ifMatch now ident => exact within_deleteRelation model ifMatch now admits
  | importStream requests ending =>
      exact Program.Within.bind (within_importStream requests admits ending) fun _ => trivial
  | subscriber rows => exact within_subscriber rows admits
  | diff model exported => exact within_diff model exported
  | setManifest cached stream now =>
      exact Program.Within.bind (.done _) fun _ => within_setManifestTx admits cached _ _ _
  | syncManifest cached remote now =>
      exact Program.Within.bind (.done _) fun _ => within_setManifestTx admits cached _ _ _
  | deleteManifest ifMatch now =>
      exact Program.Within.bind (.done _) fun _ => within_deleteManifestTx admits ifMatch _ _

end Operations

end Eamerald.Directory
