import Eamerald.Directory.Stats
import Eamerald.Foundation.Counting

/-! What the counters say. A counter that starts at zero and is raised once for
every item of some kind is positive exactly when there are such items, as long as
there are fewer items than it can count. -/

set_option autoImplicit false

namespace Eamerald.Directory

open Foundation Store

section Counters

theorem ofNat_pos {number : Nat} (positive : 0 < number) (small : number < 2 ^ 31) :
    0 < Int32.ofNat number := by
  rw [Int32.lt_iff_toInt_lt, Int32.toInt_ofNat_of_lt small]
  exact Int.natCast_pos.mpr positive

theorem foldl_counter_pos {σ α : Type} {raise : σ → α → σ} (read : σ → Int32) (counted : α → Bool)
    (raised : ∀ state item, read (raise state item) = read state + if counted item then 1 else 0)
    {items : List α} {state : σ} (zero : read state = 0) (small : items.length < 2 ^ 31)
    {item : α} (member : item ∈ items) (kind : counted item) : 0 < read (items.foldl raise state) := by
  rw [foldl_counter read counted raised, zero, Int32.zero_add]
  refine ofNat_pos ?_ (Nat.lt_of_le_of_lt List.countP_le_length small)
  exact List.countP_pos_iff.mpr ⟨item, member, kind⟩

theorem getD_amend {α : Type} (fresh : α) (map : Named α) (name other : GoString) (change : α → α) :
    (amend fresh map name change)[other]?.getD fresh =
      if name = other then change (map[other]?.getD fresh) else map[other]?.getD fresh := by
  unfold amend
  rw [Std.ExtTreeMap.getElem?_insert]
  by_cases same : name = other
  · subst same
    simp
  · simp [same]

end Counters

section Reading

def objectCount (stats : Stats) (name : GoString) : Int32 := (stats[name]?.getD {}).objCount

structure RelationUse where
  objectType : GoString
  relation : GoString
  subjectType : GoString
  subjectRelation : GoString
deriving DecidableEq, Repr

def useOf (ident : RelationIdentifier) : RelationUse :=
  { objectType := ident.objectType
    relation := ident.relation
    subjectType := if ident.subjectId = ['*'] then ident.subjectType ++ [':', '*']
      else ident.subjectType
    subjectRelation := ident.subjectRelation }

/-- Relations without a subject relation are counted together with all others. -/
def useCount (stats : Stats) (use : RelationUse) : Int32 :=
  let subjectType := ((stats[use.objectType]?.getD {}).relations[use.relation]?.getD
    {}).subjectTypes[use.subjectType]?.getD {}
  if use.subjectRelation = [] then subjectType.count
  else subjectType.subjectRelations[use.subjectRelation]?.getD 0

def countsFor (use : RelationUse) (relation : Relation) : Bool :=
  decide (relation.objectType = use.objectType ∧ relation.relation = use.relation ∧
    countedSubjectType relation = use.subjectType ∧
    (use.subjectRelation = [] ∨ relation.subjectRelation = use.subjectRelation))

theorem objectCount_incObject (stats : Stats) (object : Object) (name : GoString) :
    objectCount (incObject stats object) name =
      objectCount stats name + if object.type = name then 1 else 0 := by
  unfold objectCount incObject
  rw [getD_amend]
  split <;> simp

theorem objectCount_incRelation (stats : Stats) (relation : Relation) (name : GoString) :
    objectCount (incRelation stats relation) name = objectCount stats name := by
  unfold objectCount incRelation
  rw [getD_amend]
  split <;> rfl

theorem useCount_incObject (stats : Stats) (object : Object) (use : RelationUse) :
    useCount (incObject stats object) use = useCount stats use := by
  unfold useCount incObject
  rw [getD_amend]
  split <;> rfl

theorem useCount_incRelation (stats : Stats) (relation : Relation) (use : RelationUse) :
    useCount (incRelation stats relation) use =
      useCount stats use + if countsFor use relation then 1 else 0 := by
  unfold useCount incRelation countsFor
  rw [getD_amend]
  by_cases sameType : relation.objectType = use.objectType
  · rw [if_pos sameType]
    dsimp only
    rw [getD_amend]
    by_cases sameRelation : relation.relation = use.relation
    · rw [if_pos sameRelation]
      dsimp only
      rw [getD_amend]
      by_cases sameSubject : countedSubjectType relation = use.subjectType
      · rw [if_pos sameSubject]
        dsimp only
        by_cases direct : use.subjectRelation = []
        · simp [sameType, sameRelation, sameSubject, direct]
        · by_cases absent : relation.subjectRelation = []
          · have other : [] ≠ use.subjectRelation := fun same => direct same.symm
            simp [direct, absent, other]
          · simp only [direct, absent, ↓reduceIte, ne_eq, not_false_eq_true, getD_amend]
            by_cases same : relation.subjectRelation = use.subjectRelation <;>
              simp [sameType, sameRelation, sameSubject, same]
      · simp [sameSubject]
    · simp [sameRelation]
  · simp [sameType]

end Reading

section Totals

def tally (objects : List Object) (relations : List Relation) : Stats :=
  relations.foldl incRelation (objects.foldl incObject ∅)

theorem objectCount_tally_pos {objects : List Object} (relations : List Relation)
    (small : objects.length < 2 ^ 31) {object : Object} (member : object ∈ objects) :
    0 < objectCount (tally objects relations) object.type := by
  have unchanged (stats : Stats) :
      objectCount (relations.foldl incRelation stats) object.type =
        objectCount stats object.type := by
    induction relations generalizing stats with
    | nil => rfl
    | cons relation rest ih => rw [List.foldl_cons, ih, objectCount_incRelation]
  rw [tally, unchanged]
  refine foldl_counter_pos (fun stats => objectCount stats object.type)
    (fun other => decide (other.type = object.type)) ?_ ?_ small member (by simp)
  · intro stats other
    simp [objectCount_incObject]
  · simp [objectCount]

theorem useCount_tally_pos (objects : List Object) {relations : List Relation}
    (small : relations.length < 2 ^ 31) {relation : Relation} (member : relation ∈ relations) :
    0 < useCount (tally objects relations) (useOf relation.ident) := by
  have zero : useCount (objects.foldl incObject ∅) (useOf relation.ident) = 0 := by
    induction objects using List.reverseRecOn with
    | nil => simp [useCount]
    | append_singleton rest object ih => rw [List.foldl_concat, useCount_incObject, ih]
  refine foldl_counter_pos (fun stats => useCount stats (useOf relation.ident))
    (countsFor (useOf relation.ident)) ?_ zero small member ?_
  · intro stats other
    exact useCount_incRelation stats other _
  · exact decide_eq_true ⟨rfl, rfl, rfl, .inr rfl⟩

end Totals

end Eamerald.Directory
