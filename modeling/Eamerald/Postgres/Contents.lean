import Eamerald.Postgres.Tx
import Eamerald.Foundation.Tabulation

/-! The relations table as the finite set of relations it holds, and what the
queries return in terms of that set. -/

set_option autoImplicit false

namespace Eamerald.Postgres

open Foundation Store

variable {ω μ : Type} [Wire ω μ]

def Holds (tables : Tables ω) (relations : Finset Relation) : Prop :=
  Tabulates tables.relations Relation.ident Wire.relation.marshal relations

theorem holds_emptyTables : Holds (emptyTables : Tables ω) ∅ := Tabulates.empty _ _

namespace Holds

variable {tables : Tables ω} {relations : Finset Relation}

theorem scanRelations (holds : Holds tables relations) (server : Server ω) (direction : Direction)
    (filter : RelationFilter) :
    ∃ iterator, Postgres.scanRelations server direction filter [] tables = .ok iterator ∧
      iterator.values.Nodup ∧ ∀ relation, relation ∈ iterator.values ↔
        relation ∈ relations ∧ meetsConditions (relationConditions filter) relation.ident := by
  let read : RelationIdentifier × ω → Relation := fun row =>
    (Wire.relation.unmarshal row.2).toOption.getD .zero
  let columns : RelationIdentifier × ω → List GoString := fun row =>
    (orderCols direction).map (column row.1)
  obtain ⟨distinct, listed⟩ := Tabulates.read_filter holds read id
    (by simp [read, Except.toOption]) (Set.injOn_id _)
    fun row => meetsConditions (relationConditions filter) row.1
  let matching := tables.relations.toList.filter fun row =>
    meetsConditions (relationConditions filter) row.1
  have ordered : (orderBy server columns matching).Perm matching :=
    List.perm_insertionSort _ _
  have scanned : Postgres.scanRelations server direction filter [] tables =
      .ok { rows := (orderBy server columns matching).map
              fun row => ⟨read row, encodeToken server (columns row)⟩ } := by
    simp only [Postgres.scanRelations, resume, ↓reduceIte, Bool.and_true, read, columns, matching]
  refine ⟨_, scanned, ?_, ?_⟩
  · simp only [Iterator.values, List.map_map, Function.comp_def]
    exact (ordered.map read).nodup_iff.mpr distinct
  · intro relation
    simp only [Iterator.values, List.map_map, Function.comp_def]
    rw [(ordered.map read).mem_iff, listed]
    constructor
    · intro present
      obtain ⟨_, stored, meets, rfl⟩ := present
      exact ⟨stored, meets⟩
    · intro present
      exact ⟨relation, present.1, present.2, rfl⟩

theorem scanRelationsFiltered (holds : Holds tables relations) (server : Server ω)
    (filter : RelationFilter) (valueFilter : RelationIdentifier → Bool) (out : List RelationIdentifier) :
    ∃ found, Postgres.scanRelationsFiltered server filter valueFilter out tables = out ++ found ∧
      found.Nodup ∧ ∀ ident, ident ∈ found ↔ ∃ relation ∈ relations, relation.ident = ident ∧
        meetsConditions (relationConditions filter) ident ∧ valueFilter ident := by
  have injOn : Set.InjOn Relation.ident relations :=
    Tabulates.key_injOn holds Wire.relation.marshal_injective
  obtain ⟨distinct, listed⟩ := Tabulates.read_filter holds Prod.fst Relation.ident
    (fun _ _ => rfl) injOn fun row => meetsConditions (relationConditions filter) row.1
  have shuffled := (server.unordered_perm (tables.relations.toList.filter fun row =>
    meetsConditions (relationConditions filter) row.1)).map Prod.fst
  refine ⟨_, rfl, (shuffled.nodup_iff.mpr distinct).filter _, ?_⟩
  intro ident
  rw [List.mem_filter, shuffled.mem_iff, listed]
  constructor
  · intro present
    obtain ⟨⟨relation, stored, meets, rfl⟩, accepted⟩ := present
    exact ⟨relation, stored, rfl, meets, accepted⟩
  · intro present
    obtain ⟨relation, stored, rfl, meets, accepted⟩ := present
    exact ⟨⟨relation, stored, meets, rfl⟩, accepted⟩

theorem relationsExistForObject (holds : Holds tables relations) (direction : Direction)
    (objectType objectId : GoString) : Postgres.relationsExistForObject direction objectType objectId tables =
      decide (∃ relation ∈ relations, direction.anchor relation.ident = ⟨objectType, objectId⟩) := by
  rw [Bool.eq_iff_iff, decide_eq_true_eq, Postgres.relationsExistForObject, List.any_eq_true]
  constructor
  · intro present
    obtain ⟨row, member, named⟩ := present
    obtain ⟨relation, stored, rfl⟩ := (Tabulates.mem_toList holds).mp member
    refine ⟨relation, stored, ?_⟩
    cases direction <;>
      simpa [Direction.anchor, RelationIdentifier.object, RelationIdentifier.subject] using named
  · intro present
    obtain ⟨relation, stored, named⟩ := present
    refine ⟨_, (Tabulates.mem_toList holds).mpr ⟨relation, stored, rfl⟩, ?_⟩
    cases direction <;>
      simpa [Direction.anchor, RelationIdentifier.object, RelationIdentifier.subject] using named

theorem setRelation (holds : Holds tables relations) (server : Server ω) (relation : Relation) :
    Holds ((backend server).exec (.setRelation relation) tables).2
      (insert relation (relations.filter fun other => other.ident ≠ relation.ident)) :=
  Tabulates.insert holds relation

end Holds

end Eamerald.Postgres
