import Eamerald.Directory.Relation
import Eamerald.Bolt.Keys
import Eamerald.Postgres.Tx

/-! What a lookup selects. The value filter and the conditions of the query both
test agreement with the pattern; the key prefix is a necessary condition of it. -/

set_option autoImplicit false

namespace Eamerald.Directory.SafeRelation

open Store

/-- The identifier equals the pattern on every field the pattern fixes. -/
def Agrees (pattern : SafeRelation) (item : RelationIdentifier) : Prop :=
  (pattern.ident.objectType ≠ [] → item.objectType = pattern.ident.objectType) ∧
  (pattern.ident.objectId ≠ [] → item.objectId = pattern.ident.objectId) ∧
  (pattern.ident.relation ≠ [] → item.relation = pattern.ident.relation) ∧
  (pattern.ident.subjectType ≠ [] → item.subjectType = pattern.ident.subjectType) ∧
  (pattern.ident.subjectId ≠ [] → item.subjectId = pattern.ident.subjectId) ∧
  (pattern.hasSubjectRelation → item.subjectRelation = pattern.ident.subjectRelation)

instance (pattern : SafeRelation) (item : RelationIdentifier) : Decidable (pattern.Agrees item) :=
  inferInstanceAs (Decidable (_ ∧ _))

private theorem passes_iff {rejected : Prop} [Decidable rejected] {rest : Bool} :
    (if rejected then false else rest) = true ↔ ¬ rejected ∧ rest = true := by
  split <;> simp_all

theorem valueFilter_iff (pattern : SafeRelation) (item : RelationIdentifier) :
    pattern.valueFilter item ↔ pattern.Agrees item := by
  unfold valueFilter Agrees
  simp only [passes_iff, not_and, ne_eq, Decidable.not_not, and_true,
    eq_comm (a := pattern.ident.objectId) (b := item.objectId),
    eq_comm (a := pattern.ident.subjectId) (b := item.subjectId)]

theorem meetsConditions_iff (pattern : SafeRelation) (item : RelationIdentifier) :
    Postgres.meetsConditions (Postgres.relationConditions pattern.asFilter) item ↔ pattern.Agrees item := by
  unfold Postgres.meetsConditions Postgres.relationConditions asFilter Agrees
  simp only [List.all_append, Bool.and_eq_true, List.all_eq_true, and_assoc]
  refine and_congr ?_ (and_congr ?_ (and_congr ?_ (and_congr ?_ (and_congr ?_ ?_)))) <;>
    split <;> simp_all [Postgres.column]

open Bolt in
theorem filterPrefix_prefix_key {anchor other : ObjectIdentifier} {relation : GoString} {fields : KeyFields}
    (anchorType : isSet anchor.objectType → fields.anchor.objectType = anchor.objectType)
    (anchorId : isSet anchor.objectId → fields.anchor.objectId = anchor.objectId)
    (name : isSet relation → fields.relation = relation)
    (otherType : isSet other.objectType → fields.other.objectType = other.objectType)
    (otherId : isSet other.objectId → fields.other.objectId = other.objectId) :
    filterPrefix anchor relation other <+: fields.key := by
  unfold filterPrefix KeyFields.key
  split
  · exact List.nil_prefix
  · rename_i complete
    simp only [Bool.or_eq_true, Bool.not_eq_true', not_or, Bool.not_eq_false] at complete
    rw [anchorType complete.1, anchorId complete.2, List.prefix_append_right_inj,
      List.cons_prefix_cons, List.prefix_append_right_inj, List.cons_prefix_cons]
    refine ⟨rfl, rfl, ?_⟩
    split
    · exact List.nil_prefix
    · rename_i named
      rw [name (by simpa using named), List.prefix_append_right_inj, List.cons_prefix_cons]
      refine ⟨rfl, ?_⟩
      split
      · exact List.nil_prefix
      · rename_i typed
        rw [otherType (by simpa using typed), List.prefix_append_right_inj, List.cons_prefix_cons]
        refine ⟨rfl, ?_⟩
        split
        · exact List.nil_prefix
        · rename_i identified
          rw [KeyFields.tail, otherId (by simpa using identified)]
          exact List.prefix_append _ _

theorem Agrees.scanPrefix_begins {pattern : SafeRelation} {item : RelationIdentifier}
    (agrees : pattern.Agrees item) (direction : Direction) :
    Bolt.scanPrefix direction pattern.asFilter <+: Bolt.indexKey direction item := by
  obtain ⟨objectType, objectId, relation, subjectType, subjectId, _⟩ := agrees
  cases direction with
  | byObject =>
      exact filterPrefix_prefix_key (fun set => objectType (ne_nil_of_isSet set))
        (fun set => objectId (ne_nil_of_isSet set)) (fun set => relation (ne_nil_of_isSet set))
        (fun set => subjectType (ne_nil_of_isSet set)) (fun set => subjectId (ne_nil_of_isSet set))
  | bySubject =>
      exact filterPrefix_prefix_key (fun set => subjectType (ne_nil_of_isSet set))
        (fun set => subjectId (ne_nil_of_isSet set)) (fun set => relation (ne_nil_of_isSet set))
        (fun set => objectType (ne_nil_of_isSet set)) (fun set => objectId (ne_nil_of_isSet set))

end Eamerald.Directory.SafeRelation
