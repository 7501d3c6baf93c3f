import Eamerald.Directory.Library

/-! Relation identifiers as lookups: which index a lookup is anchored on, the
filter handed to the store, and the test its rows still have to pass. -/

set_option autoImplicit false

namespace Eamerald.Directory

open Store

def errNoCompleteObjectIdentifier : Err :=
  .aserto ⟨"E20050", .failedPrecondition, 412, "relation identifier no complete object identifier"⟩

def relationIdentifier (ident : RelationIdentifier) : SafeRelation :=
  ⟨ident, decide (ident.subjectRelation ≠ [])⟩

namespace SafeRelation

/-- `item` equals the pattern on every field the pattern sets. -/
def valueFilter (pattern : SafeRelation) (item : RelationIdentifier) : Bool :=
  if pattern.ident.objectType ≠ [] ∧ item.objectType ≠ pattern.ident.objectType then false
  else if pattern.ident.objectId ≠ [] ∧ pattern.ident.objectId ≠ item.objectId then false
  else if pattern.ident.relation ≠ [] ∧ item.relation ≠ pattern.ident.relation then false
  else if pattern.ident.subjectType ≠ [] ∧ item.subjectType ≠ pattern.ident.subjectType then false
  else if pattern.ident.subjectId ≠ [] ∧ pattern.ident.subjectId ≠ item.subjectId then false
  else if pattern.hasSubjectRelation ∧ item.subjectRelation ≠ pattern.ident.subjectRelation then
    false
  else true

def asFilter (pattern : SafeRelation) : RelationFilter where
  objectType := pattern.ident.objectType
  objectId := pattern.ident.objectId
  relation := pattern.ident.relation
  subjectType := pattern.ident.subjectType
  subjectId := pattern.ident.subjectId
  subjectRelation := pattern.ident.subjectRelation
  hasSubjectRelation := pattern.hasSubjectRelation

variable {μ : Type} (library : Library μ)

def direction (pattern : SafeRelation) : Direction × Bool :=
  if library.isComplete pattern.ident.object then (.byObject, true)
  else if library.isComplete pattern.ident.subject then (.bySubject, true)
  else (.byObject, false)

def pathAndFilter (pattern : SafeRelation) : Except Err (Direction × RelationFilter) :=
  if (pattern.direction library).2 then .ok ((pattern.direction library).1, pattern.asFilter)
  else .error errNoCompleteObjectIdentifier

def filter (pattern : SafeRelation) :
    Direction × RelationFilter × (RelationIdentifier → Bool) :=
  ((pattern.direction library).1, pattern.asFilter, pattern.valueFilter)

end SafeRelation

end Eamerald.Directory
