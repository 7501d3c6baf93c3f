import Eamerald.Store.Interface

/-! Counts of the stored objects and relations, by type, relation, subject type
and subject relation. The counters are 32 bits wide and wrap around. -/

set_option autoImplicit false

namespace Eamerald.Directory

open Foundation Store

abbrev Named (α : Type) := Std.ExtTreeMap GoString α

structure SubjectTypeStats where
  count : Int32 := 0
  subjectRelations : Named Int32 := ∅

structure RelationStats where
  count : Int32 := 0
  subjectTypes : Named SubjectTypeStats := ∅

structure ObjectTypeStats where
  objCount : Int32 := 0
  count : Int32 := 0
  relations : Named RelationStats := ∅

abbrev Stats := Named ObjectTypeStats

/-- Change the entry of a name, starting from a fresh one if there is none. -/
def amend {α : Type} (fresh : α) (map : Named α) (name : GoString) (change : α → α) : Named α :=
  map.insert name (change (map[name]?.getD fresh))

def incObject (stats : Stats) (object : Object) : Stats :=
  amend {} stats object.type fun objectType =>
    { objectType with objCount := objectType.objCount + 1 }

/-- The subject type a relation counts under: grants to all subjects are kept apart. -/
def countedSubjectType (relation : Relation) : GoString :=
  if relation.subjectId = ['*'] then relation.subjectType ++ [':', '*'] else relation.subjectType

def incRelation (stats : Stats) (relation : Relation) : Stats :=
  amend {} stats relation.objectType fun objectType =>
    { objectType with
      count := objectType.count + 1
      relations := amend {} objectType.relations relation.relation fun counted =>
        { counted with
          count := counted.count + 1
          subjectTypes := amend {} counted.subjectTypes (countedSubjectType relation)
            fun subjectType =>
              { subjectType with
                count := subjectType.count + 1
                subjectRelations :=
                  if relation.subjectRelation ≠ [] then
                    amend 0 subjectType.subjectRelations relation.subjectRelation (· + 1)
                  else subjectType.subjectRelations } } }

section Programs

variable {μ : Type}

def countObjects (stats : Stats) : Tx μ Stats := do
  let iterator ← Program.lift (.scanObjects [] [])
  return iterator.values.foldl incObject stats

def countRelations (stats : Stats) : Tx μ Stats := do
  let iterator ← Program.lift (.scanRelations .byObject {} [])
  return iterator.values.foldl incRelation stats

def calculateStats : Tx μ Stats := do
  let stats ← countObjects ∅
  countRelations stats

end Programs

end Eamerald.Directory
