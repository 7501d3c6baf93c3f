import Eamerald.Directory.Importer

/-! The handlers that apply synchronised rows, and the two stages that run them:
the subscriber stores what the hub exported, the difference stage deletes the
rows the hub did not export. A failing row does not end the transaction. -/

set_option autoImplicit false

namespace Eamerald.Datasync

open Foundation Store Directory

variable {μ : Type} (library : Library μ)

def validateObject (model : μ) : Option Object → Except Err Object
  | none => .error (.derr .invalidObject "nil".toList)
  | some object => do
      library.object object
      library.validateObject model object
      return object

def validateRelation (model : μ) : Option Relation → Except Err Relation
  | none => .error (.derr .invalidRelation "nil".toList)
  | some relation => do
      library.relation relation
      library.validateRelation model relation.ident
      return relation

section Handlers

variable (model : μ)

def objectSetHandler (now : Timestamp) (request : Option Object) : Tx μ PUnit := do
  let object ← Program.done (validateObject library model request)
  storeObject library now object

def objectDeleteHandler (request : Option Object) : Tx μ PUnit := do
  let object ← Program.done (validateObject library model request)
  removeObject object

def relationSetHandler (now : Timestamp) (request : Option Relation) : Tx μ PUnit := do
  let relation ← Program.done (validateRelation library model request)
  storeRelation library now relation

def relationDeleteHandler (request : Option Relation) : Tx μ PUnit := do
  let relation ← Program.done (validateRelation library model request)
  removeRelation relation

end Handlers

inductive Row where
  | object (object : Option Object)
  | relation (relation : Option Relation)

structure Applied (μ : Type) where
  model : μ
  now : Timestamp
  row : Row

def apply (applied : Applied μ) : Tx μ PUnit :=
  match applied.row with
  | .object object => objectSetHandler library applied.model applied.now object
  | .relation relation => relationSetHandler library applied.model applied.now relation

def subscriber (rows : List (Applied μ)) : Tx μ PUnit :=
  Program.each rows fun applied => do
    let _ ← (apply library applied).attempt

def objectRowKey (object : Object) : GoString := object.type ++ ':' :: object.id

def relationRowKey (relation : Relation) : GoString :=
  relation.objectType ++ ':' :: (relation.objectId ++ '#' :: (relation.relation ++ '@' ::
    (relation.subjectType ++ ':' :: (relation.subjectId ++
      if relation.subjectRelation = [] then [] else '#' :: relation.subjectRelation))))

section Difference

variable (model : μ) (exported : GoString → Bool)

def diffObjects : Tx μ PUnit := do
  let iterator ← Program.lift (.scanObjects [] [])
  if let some error := iterator.closeError then throw error
  Program.each (iterator.values.filter fun object => !exported (objectRowKey object))
    fun object => do let _ ← (objectDeleteHandler library model (some object)).attempt

def diffRelations : Tx μ PUnit := do
  let iterator ← Program.lift (.scanRelations .byObject {} [])
  if let some error := iterator.closeError then throw error
  Program.each (iterator.values.filter fun relation => !exported (relationRowKey relation))
    fun relation => do let _ ← (relationDeleteHandler library model (some relation)).attempt

def diff : Tx μ PUnit := do
  diffObjects library model exported
  diffRelations library model exported

end Difference

section Validation

variable {μ : Type} {library : Library μ}

theorem eq_of_validateObject {model : μ} {object row : Object}
    (valid : validateObject library model (some object) = .ok row) : row = object := by
  obtain ⟨_, _, rest⟩ := except_bind_eq_ok.mp valid
  obtain ⟨_, _, same⟩ := except_bind_eq_ok.mp rest
  cases same
  rfl

theorem eq_of_validateRelation {model : μ} {relation row : Relation}
    (valid : validateRelation library model (some relation) = .ok row) : row = relation := by
  obtain ⟨_, _, rest⟩ := except_bind_eq_ok.mp valid
  obtain ⟨_, _, same⟩ := except_bind_eq_ok.mp rest
  cases same
  rfl

end Validation

end Eamerald.Datasync
