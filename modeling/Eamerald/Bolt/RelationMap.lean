import Eamerald.Bolt.TxProperties

/-! The relation store against a finite map keyed by the full identifier. The
map keeps, for each identifier, the relation last set under it and not deleted
since; the store keeps one value for each object key. -/

set_option autoImplicit false

namespace Eamerald.Bolt

open Store

inductive RelationCall where
  | set (relation : Relation)
  | delete (ident : RelationIdentifier)
  | get (ident : RelationIdentifier)
deriving DecidableEq, Repr

namespace RelationCall

def ident : RelationCall → RelationIdentifier
  | .set relation => relation.ident
  | .delete ident => ident
  | .get ident => ident

def record (target : RelationIdentifier) (current : Option Relation) :
    RelationCall → Option Relation
  | .set relation => if relation.ident = target then some relation else current
  | .delete ident => if ident = target then none else current
  | .get _ => current

end RelationCall

/-- The relation last set under `target` and not deleted since. -/
def lastSet (target : RelationIdentifier) (accepted : List RelationCall) : Option Relation :=
  accepted.foldl (RelationCall.record target) none

def answer : Option Relation → Except Err Relation
  | none => .error errKeyNotFound
  | some relation => .ok relation

section Runs

variable {ω μ : Type} [Wire ω μ] {idents : Set RelationIdentifier}
  {run : BoltDB ω × List RelationCall} {target : RelationIdentifier} {call : RelationCall}
  {accepted : List RelationCall}

def RelationCall.exec (call : RelationCall) (db : BoltDB ω) : Except Err (Option Relation) × BoltDB ω :=
  match call with
  | .set relation =>
      let outcome := backend.exec (.setRelation relation) db
      (outcome.1.map some, outcome.2)
  | .delete ident =>
      let outcome := backend.exec (.deleteRelation ident) db
      (outcome.1.map fun _ => none, outcome.2)
  | .get ident =>
      let outcome := backend.exec (.getRelationExact ident) db
      (outcome.1.map some, outcome.2)

def RelationCall.step (run : BoltDB ω × List RelationCall) (call : RelationCall) :
    BoltDB ω × List RelationCall :=
  match call.exec run.1 with
  | (.ok _, db) => (db, run.2 ++ [call])
  | (.error _, db) => (db, run.2)

def runCalls (calls : List RelationCall) : BoltDB ω × List RelationCall :=
  calls.foldl RelationCall.step (emptyDB, [])

/-- Over calls on these identifiers the store cannot be told from the map. -/
structure BehavesAsMap (ω : Type) {μ : Type} [Wire ω μ] (idents : Set RelationIdentifier) :
    Prop where
  reads : ∀ calls : List RelationCall, (∀ call ∈ calls, call.ident ∈ idents) →
    ∀ target ∈ idents,
      getRelationExact target (runCalls calls : BoltDB ω × List RelationCall).1 =
        answer (lastSet target (runCalls calls : BoltDB ω × List RelationCall).2)
  frame : ∀ calls : List RelationCall, (∀ call ∈ calls, call.ident ∈ idents) →
    ∀ call : RelationCall, call.ident ∈ idents → ∀ target ∈ idents, target ≠ call.ident →
      getRelationExact target (call.exec (runCalls calls : BoltDB ω × List RelationCall).1).2 =
        getRelationExact target (runCalls calls : BoltDB ω × List RelationCall).1

def KeepsApart (idents : Set RelationIdentifier) : Prop :=
  ∀ ident ∈ idents, ∀ other ∈ idents, byteLength (objKeyOf ident) ≤ maxKeySize →
    objKeyOf ident = objKeyOf other → ident = other

/-- The store's object index holds the map, on the identifiers in use. -/
structure Represents (idents : Set RelationIdentifier) (run : BoltDB ω × List RelationCall) :
    Prop where
  ready : Ready run.1
  recorded : ∀ obj, run.1.bucket .relationsObj = some obj → ∀ target ∈ idents,
    obj[objKeyOf target]? = (lastSet target run.2).map Wire.relation.marshal
  fits : ∀ target relation, lastSet target run.2 = some relation →
    byteLength (objKeyOf target) ≤ maxKeySize

theorem lastSet_append (target : RelationIdentifier) (accepted : List RelationCall) (call : RelationCall) :
    lastSet target (accepted ++ [call]) = call.record target (lastSet target accepted) := by
  simp [lastSet]

theorem represents_empty (idents : Set RelationIdentifier) :
    Represents idents ((emptyDB, []) : BoltDB ω × List RelationCall) where
  ready := ready_emptyDB
  recorded := by
    intro obj found target _
    cases found
    rfl
  fits := by
    intro target relation recorded
    cases recorded

theorem Represents.getRelationExact (represents : Represents idents run) (member : target ∈ idents) :
    getRelationExact target run.1 = answer (lastSet target run.2) := by
  obtain ⟨obj, found⟩ := represents.ready .relationsObj
  rw [getRelationExact_of_some target found, represents.recorded obj found target member]
  cases lastSet target run.2 with
  | none => rfl
  | some relation => exact Wire.relation.unmarshal_marshal relation

theorem Represents.set (apart : KeepsApart idents)
    {db : BoltDB ω} (represents : Represents idents (db, accepted))
    {relation : Relation} (member : relation.ident ∈ idents) :
    Represents idents ((RelationCall.set relation).step (db, accepted)) := by
  obtain ⟨obj, objFound⟩ := represents.ready .relationsObj
  obtain ⟨sub, subFound⟩ := represents.ready .relationsSub
  by_cases fits : byteLength (objKeyOf relation.ident) ≤ maxKeySize
  · have written := setRelation_of_fits relation objFound subFound fits
    simp only [RelationCall.step, RelationCall.exec, backend, written, Except.map]
    refine ⟨(represents.ready.assign _ _).assign _ _, ?_, ?_⟩
    · intro bucket found target targetMember
      simp only [bucket_assign_sub_obj, bucket_assign_self, Option.some.injEq] at found
      subst found
      rw [lastSet_append, Std.ExtTreeMap.getElem?_insert, RelationCall.record]
      by_cases same : relation.ident = target
      · subst same
        simp
      · have different : objKeyOf relation.ident ≠ objKeyOf target := fun equal =>
          same (apart _ member _ targetMember fits equal)
        simp [same, different, represents.recorded obj objFound target targetMember]
    · intro target stored recorded
      rw [lastSet_append, RelationCall.record] at recorded
      by_cases same : relation.ident = target
      · exact same ▸ fits
      · rw [if_neg same] at recorded
        exact represents.fits target stored recorded
  · have refused := setRelation_of_tooLarge relation objFound (Nat.lt_of_not_le fits)
    simpa only [RelationCall.step, RelationCall.exec, backend, refused, Except.map] using represents

theorem Represents.delete (apart : KeepsApart idents)
    {db : BoltDB ω} (represents : Represents idents (db, accepted))
    {ident : RelationIdentifier} (member : ident ∈ idents) :
    Represents idents ((RelationCall.delete ident).step (db, accepted)) := by
  obtain ⟨obj, objFound⟩ := represents.ready .relationsObj
  obtain ⟨sub, subFound⟩ := represents.ready .relationsSub
  have erased := deleteRelation_of_some ident objFound subFound
  simp only [RelationCall.step, RelationCall.exec, backend, erased, Except.map]
  refine ⟨(represents.ready.assign _ _).assign _ _, ?_, ?_⟩
  · intro bucket found target targetMember
    simp only [bucket_assign_sub_obj, bucket_assign_self, Option.some.injEq] at found
    subst found
    rw [lastSet_append, Std.ExtTreeMap.getElem?_erase, RelationCall.record,
      represents.recorded obj objFound target targetMember]
    by_cases same : ident = target
    · subst same
      simp
    · rw [if_neg same]
      split
      · rename_i equal
        -- A shared key is too long for the engine, so nothing was ever recorded under it.
        cases recorded : lastSet target accepted with
        | none => rfl
        | some relation =>
            have fits := represents.fits target relation recorded
            have shared := Std.LawfulEqOrd.compare_eq_iff_eq.mp equal
            exact False.elim (same (apart _ targetMember _ member fits shared.symm).symm)
      · rfl
  · intro target stored recorded
    rw [lastSet_append, RelationCall.record] at recorded
    split at recorded
    · cases recorded
    · exact represents.fits target stored recorded

theorem Represents.get (represents : Represents idents run) (ident : RelationIdentifier) :
    Represents idents ((RelationCall.get ident).step run) := by
  cases read : Bolt.getRelationExact ident run.1 with
  | ok relation =>
      simp only [RelationCall.step, RelationCall.exec, backend, read, Except.map]
      refine ⟨represents.ready, ?_, ?_⟩ <;> simp only [lastSet_append, RelationCall.record]
      · exact represents.recorded
      · exact represents.fits
  | error error =>
      simpa only [RelationCall.step, RelationCall.exec, backend, read, Except.map] using represents

theorem Represents.step (apart : KeepsApart idents) (represents : Represents idents run) (member : call.ident ∈ idents) :
    Represents idents (call.step run) := by
  cases call with
  | set relation => exact represents.set apart member
  | delete ident => exact represents.delete apart member
  | get ident => exact represents.get ident

theorem represents_runCalls (apart : KeepsApart idents)
    (calls : List RelationCall) (members : ∀ call ∈ calls, call.ident ∈ idents) :
    Represents idents (runCalls calls : BoltDB ω × List RelationCall) := by
  induction calls using List.reverseRecOn with
  | nil => exact represents_empty idents
  | append_singleton calls call ih =>
      rw [runCalls, List.foldl_append]
      refine Represents.step apart (ih ?_) (members call (by simp))
      intro earlier member
      exact members earlier (List.mem_append_left _ member)

theorem step_db (call : RelationCall) (run : BoltDB ω × List RelationCall) :
    (call.step run).1 = (call.exec run.1).2 := by
  unfold RelationCall.step
  split <;> simp_all

theorem RelationCall.record_of_ne (different : target ≠ call.ident) (current : Option Relation) :
    call.record target current = current := by
  cases call with
  | set relation => exact if_neg different.symm
  | delete ident => exact if_neg different.symm
  | get ident => rfl

theorem lastSet_step_of_ne (different : target ≠ call.ident) (run : BoltDB ω × List RelationCall) :
    lastSet target (call.step run).2 = lastSet target run.2 := by
  unfold RelationCall.step
  split
  · rw [lastSet_append, call.record_of_ne different]
  · rfl

theorem KeepsApart.behavesAsMap (apart : KeepsApart idents) : BehavesAsMap ω idents where
  reads := by
    intro calls members target member
    exact (represents_runCalls apart calls members).getRelationExact member
  frame := by
    intro calls members call callMember target member different
    have before := represents_runCalls (ω := ω) apart calls members
    have after := before.step apart callMember
    rw [← step_db, after.getRelationExact member, before.getRelationExact member,
      lastSet_step_of_ne different]

theorem BehavesAsMap.keepsApart (behaves : BehavesAsMap ω idents) : KeepsApart idents := by
  intro ident member other otherMember fits shared
  by_contra different
  obtain ⟨objectType, objectId, name, subjectType, subjectId, subjectRelation⟩ := ident
  let relation : Relation :=
    { objectType, objectId, relation := name, subjectType, subjectId, subjectRelation }
  let obj : Bucket ω := (∅ : Bucket ω).insert (objKeyOf relation.ident)
    (Wire.relation.marshal relation)
  have written : setRelation relation (emptyDB : BoltDB ω) = _ :=
    setRelation_of_fits relation rfl rfl fits
  have used : ∀ call ∈ [RelationCall.set relation], call.ident ∈ idents :=
    List.forall_mem_singleton.mpr member
  have read := behaves.reads [.set relation] used other otherMember
  simp only [runCalls, List.foldl, RelationCall.step, RelationCall.exec, backend, written,
    Except.map] at read
  have absent : lastSet other [.set relation] = none := if_neg different
  have found : obj[objKeyOf other]? = some (Wire.relation.marshal relation) := by
    rw [Std.ExtTreeMap.getElem?_insert, if_pos]
    exact Std.LawfulEqOrd.compare_eq_iff_eq.mpr shared
  rw [getRelationExact_of_some other (bucket_assign_sub_obj _ _ |>.trans
    (bucket_assign_self _ _ (some obj))), found, List.nil_append, absent] at read
  simp [answer] at read

end Runs

/-- Which identifiers the relation store keeps apart: with plain type and relation
names, it is a map keyed by the full identifier exactly as long as no storable
object key also reads as the one of another identifier in use, and each index key
is injective exactly when none of its keys does. -/
theorem relation_store_behaves_as_map_iff (ω : Type) {μ : Type} [Wire ω μ]
    (idents : Set RelationIdentifier) (named : ∀ ident ∈ idents, ModelNames ident) :
    (BehavesAsMap ω idents ↔ ∀ ident ∈ idents, ∀ other ∈ idents,
        byteLength (objKeyOf ident) ≤ maxKeySize →
          ¬ (objFields ident).ReadsAs (objFields other)) ∧
      (Set.InjOn objKeyOf idents ↔ ∀ ident ∈ idents, ∀ other ∈ idents,
        ¬ (objFields ident).ReadsAs (objFields other)) ∧
      (Set.InjOn subKeyOf idents ↔ ∀ ident ∈ idents, ∀ other ∈ idents,
        ¬ (subFields ident).ReadsAs (subFields other)) := by
  refine ⟨⟨?_, ?_⟩, ?_, ?_⟩
  · intro behaves ident member other otherMember fits reads
    have same := behaves.keepsApart ident member other otherMember fits reads.key_eq
    exact reads.ne (congrArg objFields same)
  · intro noReading
    refine KeepsApart.behavesAsMap ?_
    intro ident member other otherMember fits same
    have otherFits : byteLength (objKeyOf other) ≤ maxKeySize := same ▸ fits
    rcases (KeyFields.key_eq_iff (named ident member).objFields
      (named other otherMember).objFields).mp same with equal | reads | reads
    · exact objFields_injective equal
    · exact False.elim (noReading ident member other otherMember fits reads)
    · exact False.elim (noReading other otherMember ident member otherFits reads)
  · exact injOn_key_iff objFields_injective fun ident member => (named ident member).objFields
  · exact injOn_key_iff subFields_injective fun ident member => (named ident member).subFields

def groupViewer : Relation :=
  { objectType := "doc".toList, objectId := "d1".toList, relation := "viewer".toList,
    subjectType := "group".toList, subjectId := "eng|member".toList, subjectRelation := [] }

def membersViewer : RelationIdentifier :=
  ⟨"doc".toList, "d1".toList, "viewer".toList, "group".toList, "eng".toList, "member".toList⟩

theorem relation_store_maps_viewers :
    ModelNames groupViewer.ident ∧ ModelNames membersViewer ∧
      ¬ BehavesAsMap (Blob Unit) {groupViewer.ident, membersViewer} := by
  have names : ModelNames groupViewer.ident ∧ ModelNames membersViewer :=
    ⟨⟨by decide, by decide, by decide, by decide⟩, ⟨by decide, by decide, by decide, by decide⟩⟩
  refine ⟨names.1, names.2, ?_⟩
  rw [(relation_store_behaves_as_map_iff (Blob Unit) {groupViewer.ident, membersViewer} (by
    rintro ident (rfl | rfl)
    · exact names.1
    · exact names.2)).1]
  intro apart
  exact apart groupViewer.ident (by simp) membersViewer (by simp) (by decide)
    ⟨rfl, .inl ⟨rfl, rfl, rfl, rfl, by decide, rfl⟩⟩

/-- Deleting the members of `eng` deletes the group `eng|member`. -/
theorem delete_members_removes_group :
    let before : BoltDB (Blob Unit) := (runCalls [.set groupViewer]).1
    let after : BoltDB (Blob Unit) := (runCalls [.set groupViewer, .delete membersViewer]).1
    membersViewer ≠ groupViewer.ident ∧
      getRelationExact groupViewer.ident before = .ok groupViewer ∧
      getRelationExact groupViewer.ident after = .error errKeyNotFound := by
  refine ⟨by decide, ?_, ?_⟩ <;> decide +kernel

end Eamerald.Bolt
