import Eamerald.Bolt.TxProperties
import Eamerald.Foundation.Tabulation

/-! The relation indexes as the finite set of relations they hold, and what the
scans return in terms of that set. -/

set_option autoImplicit false

namespace Eamerald.Bolt

open Foundation Store

variable {ω μ : Type} [Wire ω μ]

/-- Both indexes hold these relations, each under the key made of its own fields,
and nothing else. -/
def Mirrors (db : BoltDB ω) (relations : Finset Relation) : Prop :=
  ∀ direction, ∃ bucket, db.bucket (directionPath direction) = some bucket ∧
    Tabulates bucket (fun relation => indexKey direction relation.ident) Wire.relation.marshal
      relations

theorem mirrors_emptyDB : Mirrors (emptyDB : BoltDB ω) ∅ :=
  fun _ => ⟨∅, rfl, Tabulates.empty _ _⟩

namespace Mirrors

variable {db : BoltDB ω} {relations : Finset Relation} {ident : RelationIdentifier}

theorem indexKey_injOn (mirrors : Mirrors db relations) (direction : Direction) :
    Set.InjOn (fun relation : Relation => indexKey direction relation.ident) relations := by
  obtain ⟨bucket, _, tabulates⟩ := mirrors direction
  exact tabulates.key_injOn Wire.relation.marshal_injective

theorem ident_injOn (mirrors : Mirrors db relations) : Set.InjOn Relation.ident relations := by
  intro relation member other otherMember same
  exact mirrors.indexKey_injOn .byObject member otherMember (congrArg (indexKey .byObject) same)

/-- A scan yields the relations whose key begins with its prefix, once each. -/
theorem scanRelations (mirrors : Mirrors db relations) (direction : Direction) (filter : RelationFilter) :
    ∃ iterator, Bolt.scanRelations direction filter [] db = .ok iterator ∧
      iterator.values.Nodup ∧ ∀ relation, relation ∈ iterator.values ↔
        relation ∈ relations ∧ scanPrefix direction filter <+: indexKey direction relation.ident := by
  obtain ⟨bucket, found, tabulates⟩ := mirrors direction
  let read : Key × ω → Relation := fun entry =>
    (Wire.relation.unmarshal entry.2).toOption.getD .zero
  obtain ⟨distinct, listed⟩ := tabulates.read_filter read id (by simp [read, Except.toOption])
    (Set.injOn_id _) fun entry => decide (scanPrefix direction filter <+: entry.1)
  rw [← scan_self] at distinct listed
  have scanned : Bolt.scanRelations direction filter [] db =
      .ok { rows := (scan bucket (scanPrefix direction filter) (scanPrefix direction filter)).map
              fun entry => ⟨read entry, entry.1⟩ } := by
    simp only [Bolt.scanRelations, scanIterator, setBucket_of_some found, ↓reduceIte, read]
  refine ⟨_, scanned, ?_, ?_⟩
  · simpa [Iterator.values, List.map_map, Function.comp_def] using distinct
  · intro relation
    have member := listed relation
    simp only [decide_eq_true_eq, id_eq] at member
    simp only [Iterator.values, List.map_map, Function.comp_def]
    rw [member]
    constructor
    · intro present
      obtain ⟨_, stored, begins, rfl⟩ := present
      exact ⟨stored, begins⟩
    · intro present
      exact ⟨relation, present.1, present.2, rfl⟩

theorem collectFiltered_eq {entries : List (Key × ω)} {read : Key × ω → RelationIdentifier}
    (decodes : ∀ entry ∈ entries, Wire.unmarshalVT entry.2 .zero = .ok (read entry))
    (valueFilter : RelationIdentifier → Bool) (out : List RelationIdentifier) :
    collectFiltered valueFilter entries out = .ok (out ++ (entries.map read).filter valueFilter) := by
  induction entries generalizing out with
  | nil => simp [collectFiltered]
  | cons entry rest ih =>
      have later := ih fun other member => decodes other (List.mem_cons_of_mem entry member)
      rw [collectFiltered, decodes entry List.mem_cons_self]
      cases accepted : valueFilter (read entry) <;> simp [accepted, later]

theorem scanRelationsFiltered (mirrors : Mirrors db relations) (direction : Direction)
    (filter : RelationFilter) (valueFilter : RelationIdentifier → Bool) (out : List RelationIdentifier) :
    ∃ found, Bolt.scanRelationsFiltered direction filter valueFilter out db = .ok (out ++ found) ∧
      found.Nodup ∧ ∀ ident, ident ∈ found ↔ ∃ relation ∈ relations, relation.ident = ident ∧
        scanPrefix direction filter <+: indexKey direction ident ∧ valueFilter ident := by
  obtain ⟨bucket, found, tabulates⟩ := mirrors direction
  let read : Key × ω → RelationIdentifier := fun entry =>
    (Wire.unmarshalVT entry.2 .zero).toOption.getD .zero
  obtain ⟨distinct, listed⟩ := tabulates.read_filter read Relation.ident
    (by simp [read, Except.toOption]) mirrors.ident_injOn
    fun entry => decide (scanPrefix direction filter <+: entry.1)
  have decodes : ∀ entry ∈ scan bucket (scanPrefix direction filter) (scanPrefix direction filter),
      Wire.unmarshalVT entry.2 .zero = .ok (read entry) := by
    intro entry member
    rw [scan_self] at member
    obtain ⟨relation, _, rfl⟩ := tabulates.mem_toList.mp (List.mem_of_mem_filter member)
    simp [read, Except.toOption]
  rw [← scan_self] at distinct listed
  have scanned : Bolt.scanRelationsFiltered direction filter valueFilter out db =
      collectFiltered valueFilter
        (scan bucket (scanPrefix direction filter) (scanPrefix direction filter)) out := by
    simp only [Bolt.scanRelationsFiltered, scanWithFilter, setBucket_of_some found]
  refine ⟨_, scanned.trans (collectFiltered_eq decodes valueFilter out), distinct.filter _, ?_⟩
  intro ident
  rw [List.mem_filter, listed]
  simp only [decide_eq_true_eq]
  constructor
  · intro present
    obtain ⟨⟨relation, stored, begins, rfl⟩, accepted⟩ := present
    exact ⟨relation, stored, rfl, begins, accepted⟩
  · intro present
    obtain ⟨relation, stored, rfl, begins, accepted⟩ := present
    exact ⟨⟨relation, stored, begins, rfl⟩, accepted⟩

theorem relationsExistForObject (mirrors : Mirrors db relations) (direction : Direction)
    (objectType objectId : GoString) : Bolt.relationsExistForObject direction objectType objectId db =
      .ok (decide (∃ relation ∈ relations,
        scanPrefix direction (objectOnlyFilter direction objectType objectId) <+:
          indexKey direction relation.ident)) := by
  obtain ⟨bucket, found, tabulates⟩ := mirrors direction
  simp only [Bolt.relationsExistForObject, keyPrefixExists, setBucket_of_some found,
    head_seek_any, Except.ok.injEq]
  rw [Bool.eq_iff_iff, List.any_eq_true, decide_eq_true_eq]
  constructor
  · intro present
    obtain ⟨entry, member, begins⟩ := present
    obtain ⟨relation, stored, rfl⟩ := tabulates.mem_toList.mp member
    exact ⟨relation, stored, of_decide_eq_true begins⟩
  · intro present
    obtain ⟨relation, stored, begins⟩ := present
    exact ⟨_, tabulates.mem_toList.mpr ⟨relation, stored, rfl⟩, decide_eq_true begins⟩

theorem ready (mirrors : Mirrors db relations) :
    ∃ obj sub, db.bucket .relationsObj = some obj ∧ db.bucket .relationsSub = some sub := by
  obtain ⟨obj, objFound, _⟩ := mirrors .byObject
  obtain ⟨sub, subFound, _⟩ := mirrors .bySubject
  exact ⟨obj, sub, objFound, subFound⟩

def Separate (left right : RelationIdentifier) : Prop :=
  ∀ direction, indexKey direction left = indexKey direction right → left = right

private theorem filter_separate
    (separate : ∀ relation ∈ relations, Separate relation.ident ident) (direction : Direction) :
    (relations.filter fun relation => indexKey direction relation.ident ≠ indexKey direction ident) =
      relations.filter fun relation => relation.ident ≠ ident := by
  refine Finset.filter_congr fun relation member => not_congr ?_
  exact ⟨separate relation member direction, congrArg (indexKey direction)⟩

theorem setRelation (mirrors : Mirrors db relations) {relation : Relation}
    (fits : byteLength (objKeyOf relation.ident) ≤ maxKeySize)
    (separate : ∀ other ∈ relations, Separate other.ident relation.ident) :
    ∃ written, Bolt.setRelation relation db = (.ok relation, written) ∧ Mirrors written (insert relation
        (relations.filter fun other => other.ident ≠ relation.ident)) := by
  obtain ⟨obj, sub, objFound, subFound⟩ := mirrors.ready
  refine ⟨_, setRelation_of_fits relation objFound subFound fits, ?_⟩
  intro direction
  obtain ⟨bucket, found, tabulates⟩ := mirrors direction
  have inserted := tabulates.insert relation
  rw [filter_separate separate direction] at inserted
  cases direction with
  | byObject =>
      cases Option.some.inj (objFound.symm.trans found)
      exact ⟨_, by simp [directionPath, indexKey], inserted⟩
  | bySubject =>
      cases Option.some.inj (subFound.symm.trans found)
      exact ⟨_, by simp [directionPath, indexKey], inserted⟩

theorem deleteRelation (mirrors : Mirrors db relations)
    (separate : ∀ other ∈ relations, Separate other.ident ident) :
    ∃ written, Bolt.deleteRelation ident db = (.ok (), written) ∧
      Mirrors written (relations.filter fun other => other.ident ≠ ident) := by
  obtain ⟨obj, sub, objFound, subFound⟩ := mirrors.ready
  refine ⟨_, deleteRelation_of_some ident objFound subFound, ?_⟩
  intro direction
  obtain ⟨bucket, found, tabulates⟩ := mirrors direction
  have erased := tabulates.erase (indexKey direction ident)
  rw [filter_separate separate direction] at erased
  cases direction with
  | byObject =>
      cases Option.some.inj (objFound.symm.trans found)
      exact ⟨_, by simp [directionPath, indexKey], erased⟩
  | bySubject =>
      cases Option.some.inj (subFound.symm.trans found)
      exact ⟨_, by simp [directionPath, indexKey], erased⟩

theorem assign (mirrors : Mirrors db relations) {path : Path} (bucket : Option (Bucket ω))
    (apart : ∀ direction, directionPath direction ≠ path) : Mirrors (db.assign path bucket) relations := by
  intro direction
  rw [bucket_assign_of_ne db bucket (apart direction)]
  exact mirrors direction

end Mirrors

end Eamerald.Bolt
