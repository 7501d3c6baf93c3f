import Eamerald.Bolt.Keys
import Eamerald.Foundation.Separators

/-! When two relation identifiers share an index key. Names of types and
relations contain no separator, but ids may, and then one key can be read in
more than one way. The two other readings are described on the fields alone. -/

set_option autoImplicit false

namespace Eamerald.Bolt

open Foundation

variable {fields : KeyFields} {others : KeyFields} {ident : RelationIdentifier}

def PlainName (name : GoString) : Prop := typeIDSeparator ∉ name ∧ instanceSeparator ∉ name

instance (name : GoString) : Decidable (PlainName name) := inferInstanceAs (Decidable (_ ∧ _))

structure KeyFields.Named (fields : KeyFields) : Prop where
  anchorType : PlainName fields.anchor.objectType
  relation : PlainName fields.relation
  otherType : PlainName fields.other.objectType
  subjectRelation : PlainName fields.subjectRelation

structure ModelNames (ident : RelationIdentifier) : Prop where
  objectType : PlainName ident.objectType
  relation : PlainName ident.relation
  subjectType : PlainName ident.subjectType
  subjectRelation : PlainName ident.subjectRelation

theorem ModelNames.objFields (names : ModelNames ident) : (objFields ident).Named :=
  ⟨names.objectType, names.relation, names.subjectType, names.subjectRelation⟩

theorem ModelNames.subFields (names : ModelNames ident) : (subFields ident).Named :=
  ⟨names.subjectType, names.relation, names.objectType, names.subjectRelation⟩

/-- The end of the second id passes for a subject relation, or the relation and the second identifier
pass for part of the first id of `others`. -/
def KeyFields.ReadsAs (fields others : KeyFields) : Prop :=
  fields.anchor.objectType = others.anchor.objectType ∧
    ((fields.anchor.objectId = others.anchor.objectId ∧ fields.relation = others.relation ∧
        fields.other.objectType = others.other.objectType ∧
        fields.subjectRelation = [] ∧ others.subjectRelation ≠ [] ∧
        fields.other.objectId =
          others.other.objectId ++ instanceSeparator :: others.subjectRelation) ∨
      ∃ swallowed,
        others.anchor.objectId = fields.anchor.objectId ++ instanceSeparator ::
          (fields.relation ++ instanceSeparator ::
            (fields.other.objectType ++ typeIDSeparator :: swallowed)) ∧
        fields.tail = swallowed ++ instanceSeparator ::
          (others.relation ++ instanceSeparator ::
            (others.other.objectType ++ typeIDSeparator :: others.tail)))

theorem KeyFields.tail_eq_iff (plain : instanceSeparator ∉ fields.subjectRelation)
    (otherPlain : instanceSeparator ∉ others.subjectRelation) : fields.tail = others.tail ↔
      (fields.other.objectId = others.other.objectId ∧ fields.subjectRelation = others.subjectRelation) ∨
        (fields.subjectRelation = [] ∧ others.subjectRelation ≠ [] ∧ fields.other.objectId =
          others.other.objectId ++ instanceSeparator :: others.subjectRelation) ∨
        (others.subjectRelation = [] ∧ fields.subjectRelation ≠ [] ∧ others.other.objectId =
          fields.other.objectId ++ instanceSeparator :: fields.subjectRelation) := by
  unfold KeyFields.tail
  by_cases absent : fields.subjectRelation = [] <;>
    by_cases otherAbsent : others.subjectRelation = []
  · simp [absent, otherAbsent]
  · simp [absent, otherAbsent, Ne.symm otherAbsent]
  · simp [absent, otherAbsent, eq_comm]
  · simp [absent, otherAbsent, append_cons_inj_right plain otherPlain]

/-- An id that goes on behind a separator covers the relation and the second type of the other key. -/
theorem KeyFields.swallows (named : fields.Named) (otherNamed : others.Named) {more : GoString}
    (rest : fields.relation ++ instanceSeparator ::
        (fields.other.objectType ++ typeIDSeparator :: fields.tail) =
      more ++ instanceSeparator :: (others.relation ++ instanceSeparator ::
        (others.other.objectType ++ typeIDSeparator :: others.tail))) : ∃ swallowed,
      more = fields.relation ++ instanceSeparator :: (fields.other.objectType ++ typeIDSeparator :: swallowed) ∧
      fields.tail = swallowed ++ instanceSeparator :: (others.relation ++ instanceSeparator ::
          (others.other.objectType ++ typeIDSeparator :: others.tail)) := by
  rcases (append_cons_eq_iff named.relation.2).mp rest with ⟨_, second⟩ | ⟨beyond, same, second⟩
  · -- A type name would have to contain the separator in front of the other one.
    rw [← List.cons_append, ← List.append_assoc] at second
    have cut := (append_cons_inj_left named.otherType.1 (by
      have free := otherNamed.relation.1
      have typeFree := otherNamed.otherType.1
      simp only [List.mem_append, List.mem_cons, not_or]
      exact ⟨free, by decide, typeFree⟩)).mp second
    exact False.elim (named.otherType.2 (by rw [cut.1]; simp))
  · rcases List.append_eq_append_iff.mp second with ⟨middle, whole, tail⟩ | ⟨middle, whole, tail⟩
    · cases middle with
      | nil => simp [typeIDSeparator, instanceSeparator] at tail
      | cons head swallowed =>
          simp only [List.cons_append, List.cons.injEq] at tail
          exact ⟨swallowed, by rw [same, whole, tail.1], tail.2⟩
    · cases middle with
      | nil => simp [typeIDSeparator, instanceSeparator] at tail
      | cons head swallowed =>
          simp only [List.cons_append, List.cons.injEq] at tail
          exact False.elim (named.otherType.2 (by rw [whole, ← tail.1]; simp))

private theorem readings_of_same_anchor (named : fields.Named) (otherNamed : others.Named)
    (sameType : fields.anchor.objectType = others.anchor.objectType)
    (sameId : fields.anchor.objectId = others.anchor.objectId) (rest : fields.relation ++ instanceSeparator ::
        (fields.other.objectType ++ typeIDSeparator :: fields.tail) = others.relation ++ instanceSeparator ::
        (others.other.objectType ++ typeIDSeparator :: others.tail)) :
    fields = others ∨ fields.ReadsAs others ∨ others.ReadsAs fields := by
  obtain ⟨sameRelation, rest⟩ :=
    (append_cons_inj_left named.relation.2 otherNamed.relation.2).mp rest
  obtain ⟨sameOther, tails⟩ :=
    (append_cons_inj_left named.otherType.1 otherNamed.otherType.1).mp rest
  rcases (KeyFields.tail_eq_iff named.subjectRelation.2 otherNamed.subjectRelation.2).mp tails with
    ⟨sameSecond, sameSubject⟩ | ⟨absent, present, split⟩ | ⟨absent, present, split⟩
  · refine .inl (KeyFields.ext ?_ sameRelation ?_ sameSubject)
    · cases fieldsAnchor : fields.anchor
      cases othersAnchor : others.anchor
      simp_all
    · cases fieldsOther : fields.other
      cases othersOther : others.other
      simp_all
  · exact .inr (.inl ⟨sameType, .inl ⟨sameId, sameRelation, sameOther, absent, present, split⟩⟩)
  · exact .inr (.inr ⟨sameType.symm,
      .inl ⟨sameId.symm, sameRelation.symm, sameOther.symm, absent, present, split⟩⟩)

theorem KeyFields.ReadsAs.key_eq (reads : fields.ReadsAs others) : fields.key = others.key := by
  obtain ⟨sameType, ⟨sameId, sameRelation, sameOther, absent, present, split⟩ |
    ⟨swallowed, whole, tail⟩⟩ := reads
  · simp [KeyFields.key, KeyFields.tail, sameType, sameId, sameRelation, sameOther, absent,
      present, split]
  · simp [KeyFields.key, sameType, whole, tail]

theorem KeyFields.ReadsAs.ne (reads : fields.ReadsAs others) : fields ≠ others := by
  intro same
  subst same
  obtain ⟨_, ⟨_, _, _, absent, present, _⟩ | ⟨swallowed, whole, _⟩⟩ := reads
  · exact present absent
  · have longer := congrArg List.length whole
    simp at longer

theorem KeyFields.ReadsAs.separator_mem (reads : fields.ReadsAs others) :
    instanceSeparator ∈ fields.other.objectId ∨ instanceSeparator ∈ others.anchor.objectId := by
  obtain ⟨_, ⟨_, _, _, _, _, split⟩ | ⟨swallowed, whole, _⟩⟩ := reads
  · exact .inl (by simp [split])
  · exact .inr (by simp [whole])

/-- Two keys built from plain names are equal exactly when their fields are, or
when one of them also reads as the other. -/
theorem KeyFields.key_eq_iff (named : fields.Named) (otherNamed : others.Named) : fields.key = others.key ↔
      fields = others ∨ fields.ReadsAs others ∨ others.ReadsAs fields := by
  constructor
  · intro same
    obtain ⟨sameType, rest⟩ :=
      (append_cons_inj_left named.anchorType.1 otherNamed.anchorType.1).mp same
    rcases List.append_eq_append_iff.mp rest with ⟨middle, whole, tail⟩ | ⟨middle, whole, tail⟩
    · cases middle with
      | nil =>
          exact readings_of_same_anchor named otherNamed sameType (by simpa using whole.symm)
            (by simpa using tail)
      | cons head more =>
          simp only [List.cons_append, List.cons.injEq] at tail
          obtain ⟨swallowed, cover, remaining⟩ := swallows named otherNamed tail.2
          exact .inr (.inl ⟨sameType, .inr ⟨swallowed, by rw [whole, ← tail.1, cover], remaining⟩⟩)
    · cases middle with
      | nil =>
          exact readings_of_same_anchor named otherNamed sameType (by simpa using whole)
            (by simpa using tail.symm)
      | cons head more =>
          simp only [List.cons_append, List.cons.injEq] at tail
          obtain ⟨swallowed, cover, remaining⟩ := swallows otherNamed named tail.2
          exact .inr (.inr ⟨sameType.symm,
            .inr ⟨swallowed, by rw [whole, ← tail.1, cover], remaining⟩⟩)
  · intro readings
    rcases readings with rfl | reads | reads
    · rfl
    · exact reads.key_eq
    · exact reads.key_eq.symm

/-- Keys tell the identifiers of a set apart exactly when none of them also
reads as another one. -/
theorem injOn_key_iff {idents : Set RelationIdentifier} {fields : RelationIdentifier → KeyFields}
    (injective : Function.Injective fields) (named : ∀ ident ∈ idents, (fields ident).Named) :
    Set.InjOn (fun ident => (fields ident).key) idents ↔
      ∀ ident ∈ idents, ∀ other ∈ idents, ¬ (fields ident).ReadsAs (fields other) := by
  constructor
  · intro distinct ident member other otherMember reads
    exact reads.ne (congrArg fields (distinct member otherMember reads.key_eq))
  · intro apart ident member other otherMember same
    rcases (KeyFields.key_eq_iff (named ident member) (named other otherMember)).mp same with
      equal | reads | reads
    · exact injective equal
    · exact False.elim (apart ident member other otherMember reads)
    · exact False.elim (apart other otherMember ident member reads)

/-- Plain names, and ids without the separator that ends them in a key. -/
structure Storable (ident : RelationIdentifier) : Prop where
  names : ModelNames ident
  objectId : instanceSeparator ∉ ident.objectId
  subjectId : instanceSeparator ∉ ident.subjectId

end Eamerald.Bolt
