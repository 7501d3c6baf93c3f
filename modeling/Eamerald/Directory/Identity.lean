import Eamerald.Directory.History

/-! Identities and the users they stand for. A relation leads from a user to an identity, or in
older models from the identity to the user. Which of the two a model has is found out by checking
a relation that nobody has. -/

set_option autoImplicit false

namespace Eamerald.Postgres

open Store

theorem Filed.scanRelations {ω μ : Type} [Wire ω μ] {tables : Tables ω} (filed : Filed tables)
    (server : Server ω) (direction : Direction) (filter : RelationFilter) :
    ∃ iterator, Postgres.scanRelations server direction filter [] tables = .ok iterator ∧
      iterator.values.Nodup ∧ ∀ relation, relation ∈ iterator.values ↔
        rowAt Wire.relation tables.relations relation.ident = some relation ∧
          meetsConditions (relationConditions filter) relation.ident = true := by
  let columns (ident : RelationIdentifier) := (orderCols direction).map (column ident)
  let accept := meetsConditions (relationConditions filter)
  let rows := orderBy server (fun row => columns row.1) (tables.relations.toList.filter fun row => accept row.1)
  have scanned : Postgres.scanRelations server direction filter [] tables = .ok ⟨rows.map fun row =>
      ⟨decode Wire.relation .zero row, encodeToken server (columns row.1)⟩, none⟩ := by
    simp only [Postgres.scanRelations, resume, ↓reduceIte, Bool.and_true]
    rfl
  refine ⟨_, scanned, ?_, ?_⟩ <;> simp only [Iterator.values, List.map_map, Function.comp_def]
  · refine List.Nodup.of_map Relation.ident ?_
    rw [filed.relations.map_key .zero fun row member => ((mem_orderBy_iff row).mp member).1]
    refine List.Nodup.of_map relationColumns ?_
    rw [List.map_map]
    exact ((orderBy_perm _).map _).nodup_iff.mpr (distinct_columns _ relationColumns_injective _)
  · exact fun relation => filed.relations.mem_map .zero accept mem_orderBy_iff

end Eamerald.Postgres

namespace Eamerald.Directory.Engine

open Foundation Store

variable {ω μ : Type} [Wire ω μ] {library : Library μ} {engine : Engine ω} {state : engine.State}

/-- The relations are in both indexes, under keys that tell them apart. -/
def Indexed : (engine : Engine ω) → engine.State → Prop
  | .bolt, db => Bolt.Agree (μ := μ) db
  | .postgres _, _ => True

def StoredRelation (library : Library μ) (engine : Engine ω) (state : engine.State) (relation : Relation) : Prop :=
  relationPart.get ((engine.layout library).data state) ((engine.layout library).relations.key relation.ident) =
    some relation

theorem mem_mirrored_iff {db : Bolt.BoltDB ω} {relations : Finset Relation}
    (mirrors : Bolt.Mirrors db relations) (filed : Bolt.Filed db) (relation : Relation) :
    relation ∈ relations ↔ (bolt : Engine ω).StoredRelation library db relation := by
  obtain ⟨iterator, scanned, _, listed⟩ := mirrors.scanRelations .byObject {}
  obtain ⟨_, performed, _, _, stored⟩ := (Bolt.relationTable library).scans filed
  cases (congrArg (·, db) scanned).symm.trans performed
  have everything : Bolt.scanPrefix .byObject {} <+: Bolt.indexKey .byObject relation.ident := List.nil_prefix
  exact (and_iff_left everything).symm.trans ((listed relation).symm.trans (stored relation))

/-- A scan lists the relations that agree with its pattern, if the keys under its prefix do. -/
theorem scanRelations_stored (sound : (engine.layout library).sound state)
    (indexed : engine.Indexed (μ := μ) state) {direction : Direction} {pattern : SafeRelation}
    (keys : ∀ ident, Bolt.Storable ident →
      Bolt.scanPrefix direction pattern.asFilter <+: Bolt.indexKey direction ident → pattern.Agrees ident) :
    ∃ iterator, engine.backend.exec (TxOp.scanRelations (μ := μ) direction pattern.asFilter []) state =
        (.ok iterator, state) ∧ iterator.values.Nodup ∧ ∀ relation, relation ∈ iterator.values ↔
          engine.StoredRelation library state relation ∧ pattern.Agrees relation.ident := by
  cases engine with
  | bolt =>
      obtain ⟨relations, mirrors, storable⟩ := indexed
      obtain ⟨iterator, scanned, distinct, listed⟩ := mirrors.scanRelations direction pattern.asFilter
      refine ⟨iterator, congrArg (·, state) scanned, distinct, fun relation => ?_⟩
      rw [listed, ← mem_mirrored_iff mirrors sound]
      exact and_congr_right fun member =>
        ⟨keys relation.ident (storable relation member), fun agrees => agrees.scanPrefix_begins direction⟩
  | postgres server =>
      obtain ⟨iterator, scanned, distinct, listed⟩ :=
        Postgres.Filed.scanRelations sound server direction pattern.asFilter
      refine ⟨iterator, congrArg (·, state) scanned, distinct, fun relation => ?_⟩
      rw [listed, SafeRelation.meetsConditions_iff]
      rfl

theorem indexed_reached (clear : ClearRows library) {operations : List (Operation μ)}
    (free : ∀ operation ∈ operations, operation.BarFree) :
    engine.Indexed (μ := μ) (engine.reached library operations) := by
  cases engine with
  | bolt => exact agree_runOperations clear.relations free (Bolt.agree_emptyDB (ω := ω))
  | postgres server => trivial

end Eamerald.Directory.Engine

namespace Eamerald.Identity

open Foundation Store Directory

def user : GoString := "user".toList

def dummyUser : GoString := "topaz-user".toList

def identifier : GoString := "identifier".toList

def identity : GoString := "identity".toList

def dummyIdentity : GoString := "topaz-identity".toList

/-- Code and message of `ErrRelationTypeNotFound`. -/
def relationTypeNotFound : GoString := "E20036 relation type not found".toList

inductive IdentityResolutionDirection where
  | identityToUser
  | userToIdentity
deriving DecidableEq, Repr

inductive Failure where
  | directoryObjectNotFound
  | reader (error : Err)
deriving DecidableEq, Repr

/-- What `resolveIdentityLegacy` and `resolveIdentity` look for. -/
def relationRequest (name : GoString) : IdentityResolutionDirection → GetRelationRequest
  | .identityToUser =>
      { objectType := identity, objectId := name, relation := identifier, subjectType := user, withObjects := true }
  | .userToIdentity =>
      { objectType := user, relation := identifier, subjectType := identity, subjectId := name, withObjects := true }

section Resolution

variable {μ σ : Type} (library : Library μ) (backend : Backend μ σ) (model : μ)
  (iterate : Named Object → List (GoString × Object))

def resolutionDirection (state : σ) : IdentityResolutionDirection :=
  match (check library backend model ⟨user, dummyUser, identifier, identity, dummyIdentity, false⟩ state).reason with
  | some reason =>
      if relationTypeNotFound <+: library.errorText reason then .identityToUser else .userToIdentity
  | none => .userToIdentity

/-- The objects of the response are visited in the order in which their map is iterated. -/
def resolveIdentityToUser (request : GetRelationRequest) (state : σ) : Except Failure Object :=
  match view backend (getRelation library model [] request) state with
  | .error error => .error (if error.isNotFound then .directoryObjectNotFound else .reader error)
  | .ok response =>
      if response.objects.isEmpty then
        .ok { type := user
              id := if response.result.objectType = user then response.result.objectId
                else response.result.subjectId }
      else
        match (iterate response.objects).find? fun object => (user ++ [':']).isPrefixOf object.1 with
        | some object => .ok object.2
        | none => .error .directoryObjectNotFound

def resolveIdentity (name : GoString) (state : σ) : Except Failure Object :=
  resolveIdentityToUser library backend model iterate
    (relationRequest name (resolutionDirection library backend model state)) state

end Resolution

namespace IdentityResolutionDirection

def index : IdentityResolutionDirection → Direction
  | .identityToUser => .byObject
  | .userToIdentity => .bySubject

def userOf (ident : RelationIdentifier) : IdentityResolutionDirection → ObjectIdentifier
  | .identityToUser => ident.subject
  | .userToIdentity => ident.object

end IdentityResolutionDirection

section Lookup

variable {μ : Type} {library : Library μ} {name : GoString} {ident : RelationIdentifier}

/-- The request is in order, and is looked up by the identity. -/
structure Accepts (library : Library μ) (model : μ) (name : GoString)
    (direction : IdentityResolutionDirection) : Prop where
  valid : library.getRelationRequest (relationRequest name direction) = .ok ()
  declared : library.validateRelations model (library.safeGetRelation (relationRequest name direction)) = .ok ()
  indexed : (library.safeGetRelation (relationRequest name direction)).direction library = (direction.index, true)

theorem fields_of_prefix {fields : Bolt.KeyFields} (named : fields.Named) (set : isSet name) (free : barFree name)
    (anchorId : Bolt.instanceSeparator ∉ fields.anchor.objectId)
    (under : Bolt.filterPrefix ⟨identity, name⟩ identifier ⟨user, []⟩ <+: fields.key) :
    fields.anchor = ⟨identity, name⟩ ∧ fields.relation = identifier ∧ fields.other.objectType = user := by
  have words : isSet identity = true ∧ isSet identifier = true ∧ isSet user = true := by decide +kernel
  obtain ⟨rest, whole⟩ := under
  simp [Bolt.filterPrefix, words, set, show isSet ([] : GoString) = false from rfl, Bolt.KeyFields.key] at whole
  obtain ⟨anchorType, whole⟩ := (append_cons_inj_left (by decide) named.anchorType.1).mp whole
  obtain ⟨anchorName, whole⟩ := (append_cons_inj_left free anchorId).mp whole
  obtain ⟨relation, whole⟩ := (append_cons_inj_left (by decide) named.relation.2).mp whole
  obtain ⟨otherType, _⟩ := (append_cons_inj_left (by decide) named.otherType.1).mp whole
  exact ⟨ObjectIdentifier.ext anchorType.symm anchorName.symm, relation.symm, otherType.symm⟩

theorem agrees_of_prefix (copies : CopiesRequests library) (set : isSet name) (free : barFree name)
    (storable : Bolt.Storable ident) {direction : IdentityResolutionDirection}
    (under : Bolt.scanPrefix direction.index (library.safeGetRelation (relationRequest name direction)).asFilter <+:
      Bolt.indexKey direction.index ident) :
    (library.safeGetRelation (relationRequest name direction)).Agrees ident := by
  rw [copies.agrees_iff]
  rw [copies] at under
  cases direction with
  | identityToUser =>
      obtain ⟨object, relation, subject⟩ := fields_of_prefix storable.names.objFields set free storable.objectId under
      obtain ⟨objectType, objectId⟩ := ObjectIdentifier.mk.inj object
      exact ⟨fun _ => objectType, fun _ => objectId, fun _ => relation, fun _ => subject, nofun, nofun⟩
  | userToIdentity =>
      obtain ⟨subject, relation, object⟩ := fields_of_prefix storable.names.subFields set free storable.subjectId under
      obtain ⟨subjectType, subjectId⟩ := ObjectIdentifier.mk.inj subject
      exact ⟨fun _ => object, nofun, fun _ => relation, fun _ => subjectType, fun _ => subjectId, nofun⟩

end Lookup

section Exactness

variable {ω μ : Type} [Wire ω μ] {library : Library μ} {engine : Engine ω} {state : engine.State} {model : μ}
  {iterate : Named Object → List (GoString × Object)} {name : GoString}
  {direction : IdentityResolutionDirection} {relation : Relation}

/-- The object at an end of a relation: the stored one, or a bare one. -/
def objectAt (library : Library μ) (engine : Engine ω) (state : engine.State) (ident : ObjectIdentifier) : Object :=
  (objectPart.get ((engine.layout library).data state) ((engine.layout library).objects.key ident)).getD
    { type := ident.objectType, id := ident.objectId }

/-- The stored relation leads to the identity, from its user or to it. -/
def Leads (library : Library μ) (engine : Engine ω) (state : engine.State) (name : GoString)
    (direction : IdentityResolutionDirection) (relation : Relation) : Prop :=
  engine.StoredRelation library state relation ∧ (relationRequest name direction).Agrees relation.ident

/-- The objects that come with a relation are those at its ends. -/
structure Fetches (library : Library μ) (engine : Engine ω) (state : engine.State) (relation : Relation)
    (objects : Named Object) : Prop where
  present : ∀ ident ∈ [relation.ident.subject, relation.ident.object],
    ident.objectType ++ ':' :: ident.objectId ∈ objects
  fetched : ∀ (key : GoString) (object : Object), objects[key]? = some object →
    ∃ ident ∈ [relation.ident.subject, relation.ident.object],
      key = ident.objectType ++ ':' :: ident.objectId ∧ object = objectAt library engine state ident

section Objects

variable (sound : (engine.layout library).sound state)

include sound

theorem run_endpoint_objectAt (ident : ObjectIdentifier) :
    (endpoint ident.objectType ident.objectId).run (engine.backend (μ := μ)) state =
      (.ok (objectAt library engine state ident), state) := by
  have read : engine.backend.exec (TxOp.getObject (μ := μ) ident.objectType ident.objectId) state = _ :=
    (engine.layout library).objects.read sound ident
  simp only [endpoint, Program.bind_eq, Program.run_bind, Program.run_attempt, Program.run_lift, read, objectAt]
  cases objectPart.get ((engine.layout library).data state) ((engine.layout library).objects.key ident) <;> rfl

theorem strKey_objectAt (ident : ObjectIdentifier) :
    strKey (objectAt library engine state ident) = ident.objectType ++ ':' :: ident.objectId := by
  unfold objectAt
  cases found : objectPart.get ((engine.layout library).data state) ((engine.layout library).objects.key ident) with
  | none => rfl
  | some object =>
      have here := (engine.layout library).objects.keyed sound found
      cases engine with
      | bolt => exact here
      | postgres server =>
          have same : object.ident = ident := here
          rw [← same]
          rfl

theorem run_getWithObjects_single (relation : Relation) :
    ∃ objects, (getWithObjects [relation] ∅).run (engine.backend (μ := μ)) state = (.ok objects, state) ∧
      Fetches library engine state relation objects := by
  let subject := objectAt library engine state relation.ident.subject
  let object := objectAt library engine state relation.ident.object
  have readSubject : (endpoint relation.subjectType relation.subjectId).run (engine.backend (μ := μ)) state =
    (.ok subject, state) := run_endpoint_objectAt sound relation.ident.subject
  have readObject : (endpoint relation.objectType relation.objectId).run (engine.backend (μ := μ)) state =
    (.ok object, state) := run_endpoint_objectAt sound relation.ident.object
  refine ⟨((∅ : Named Object).insert (strKey subject) subject).insert (strKey object) object, ?_, ?_,
    fun key found here => ?_⟩
  · simp only [getWithObjects, Program.bind_eq, Program.run_bind, readSubject, readObject, Program.run_pure]
  · simp [subject, object, strKey_objectAt sound]
  · rw [Std.ExtTreeMap.getElem?_insert, Std.ExtTreeMap.getElem?_insert] at here
    simp only [subject, object, strKey_objectAt sound, Std.LawfulEqCmp.compare_eq_iff_eq] at here
    split at here
    · rename_i same
      exact ⟨_, by simp, same.symm, (Option.some.inj here).symm⟩
    · split at here
      · rename_i same
        exact ⟨_, by simp, same.symm, (Option.some.inj here).symm⟩
      · simp at here

end Objects

theorem ends_of_agrees {ident : RelationIdentifier} (agrees : (relationRequest name direction).Agrees ident) :
    (direction.userOf ident).objectType = user ∧ ∀ found ∈ [ident.subject, ident.object],
      found = direction.userOf ident ∨ found.objectType = identity := by
  have words : identity ≠ [] ∧ user ≠ [] := by decide +kernel
  obtain ⟨objectType, _, _, subjectType, _⟩ := agrees
  cases direction with
  | identityToUser =>
      refine ⟨subjectType words.2, fun found member => ?_⟩
      rcases List.mem_pair.mp member with rfl | rfl
      · exact .inl rfl
      · exact .inr (objectType words.1)
  | userToIdentity =>
      refine ⟨objectType words.2, fun found member => ?_⟩
      rcases List.mem_pair.mp member with rfl | rfl
      · exact .inr (subjectType words.1)
      · exact .inl rfl

/-- Of the two objects that come with the relation, only the user has a key of its type. -/
theorem find_user {objects : Named Object} (agrees : (relationRequest name direction).Agrees relation.ident)
    (fetches : Fetches library engine state relation objects) (iterates : (iterate objects).Perm objects.toList) :
    ∃ key, (iterate objects).find? (fun object => (user ++ [':']).isPrefixOf object.1) =
      some (key, objectAt library engine state (direction.userOf relation.ident)) := by
  obtain ⟨typed, ends⟩ := ends_of_agrees agrees
  have listed (entry : GoString × Object) : entry ∈ iterate objects ↔ objects[entry.1]? = some entry.2 := by
    rw [iterates.mem_iff, Std.ExtTreeMap.mem_toList_iff_getElem?_eq_some]
  cases found : (iterate objects).find? fun object => (user ++ [':']).isPrefixOf object.1 with
  | none =>
      have member : direction.userOf relation.ident ∈ [relation.ident.subject, relation.ident.object] := by
        cases direction <;> simp [IdentityResolutionDirection.userOf]
      have there := Std.ExtTreeMap.getElem?_eq_some_getElem (fetches.present _ member)
      have missed := List.find?_eq_none.mp found _ ((listed (_, _)).mpr there)
      simp [typed] at missed
  | some entry =>
      obtain ⟨ident, member, key, object⟩ :=
        fetches.fetched entry.1 entry.2 ((listed entry).mp (List.mem_of_find?_eq_some found))
      rcases ends ident member with rfl | other
      · exact ⟨entry.1, congrArg some (Prod.ext rfl object)⟩
      · have first : user.head? = some 'u' ∧ identity.head? = some 'i' := by decide +kernel
        have marked := List.find?_some found
        obtain ⟨rest, whole⟩ := List.isPrefixOf_iff_prefix.mp marked
        rw [key, other] at whole
        have heads := congrArg List.head? whole
        simp [List.head?_append, first] at heads

theorem resolveIdentityToUser_ok_iff (sound : (engine.layout library).sound state)
    (indexed : engine.Indexed (μ := μ) state) (copies : CopiesRequests library) (set : isSet name)
    (free : barFree name) (accepts : Accepts library model name direction)
    (iterates : ∀ objects, (iterate objects).Perm objects.toList) {found : Object} :
    resolveIdentityToUser library engine.backend model iterate (relationRequest name direction) state = .ok found ↔
      ∃ relation, (∀ other, Leads library engine state name direction other ↔ other = relation) ∧
        found = objectAt library engine state (direction.userOf relation.ident) := by
  obtain ⟨iterator, scanned, distinct, listed⟩ := Engine.scanRelations_stored sound indexed
    fun ident storable => agrees_of_prefix copies set free storable
  simp only [copies.agrees_iff] at listed
  have accepted : Accepted library model (relationRequest name direction) :=
    ⟨accepts.valid, accepts.declared, congrArg Prod.snd accepts.indexed⟩
  unfold resolveIdentityToUser
  rw [accepted.view_getRelation, accepts.indexed, view, lookupRelation, Program.bind_eq, Program.run_bind,
    Program.run_lift, scanned]
  cases values : iterator.values with
  | nil =>
      simp only [values]
      constructor
      · intro same
        cases same
      · rintro ⟨relation, only, _⟩
        simpa [values] using (listed relation).mpr ((only relation).mpr rfl)
  | cons first rest =>
      cases rest with
      | nil =>
          have only (other : Relation) : Leads library engine state name direction other ↔ other = first := by
            rw [Leads, ← listed, values, List.mem_singleton]
          obtain ⟨objects, ran, fetches⟩ := run_getWithObjects_single sound first
          obtain ⟨key, chosen⟩ := find_user ((only first).mpr rfl).2 fetches (iterates objects)
          have nonempty : objects.isEmpty = false := by
            rw [Bool.eq_false_iff, ne_eq, Std.ExtTreeMap.isEmpty_iff, Std.ExtTreeMap.eq_empty_iff_forall_not_mem]
            exact fun none => none _ (fetches.present _ List.mem_cons_self)
          have presented : ((presentRelation (relationRequest name direction) [] first).run engine.backend state).1 =
              .ok { result := first, objects } := by
            cases direction <;> simp [presentRelation, relationRequest, Program.bind_eq, Program.run_bind, ran]
          simp only [values, presented, nonempty, chosen]
          refine ⟨fun same => ⟨first, only, (Except.ok.inj same).symm⟩, ?_⟩
          rintro ⟨relation, one, same⟩
          rw [same, (only relation).mp ((one relation).mpr rfl)]
          rfl
      | cons second rest =>
          simp only [values]
          constructor
          · intro same
            cases same
          · rintro ⟨relation, only, _⟩
            have same := ((only first).mp ((listed first).mp (by simp [values]))).trans
              ((only second).mp ((listed second).mp (by simp [values]))).symm
            rw [values, List.nodup_cons] at distinct
            exact absurd (same ▸ List.mem_cons_self) distinct.1

/-- In a directory whose ids contain no bar, an identity is resolved exactly if one relation leads
to it, and then to the user of this relation. It does not matter which backend it is, and in which
order the objects of the response are visited. -/
theorem resolveIdentity_ok_iff (clear : ClearRows library) {operations : List (Operation μ)}
    (free : ∀ operation ∈ operations, operation.BarFree) (reached : engine.reached library operations = state)
    (directed : resolutionDirection library engine.backend model state = direction)
    (copies : CopiesRequests library) (set : isSet name) (nameFree : barFree name)
    (accepts : Accepts library model name direction) (iterates : ∀ objects, (iterate objects).Perm objects.toList)
    {found : Object} : resolveIdentity library engine.backend model iterate name state = .ok found ↔
      ∃ relation, (∀ other, Leads library engine state name direction other ↔ other = relation) ∧
        found = objectAt library engine state (direction.userOf relation.ident) := by
  subst reached directed
  exact resolveIdentityToUser_ok_iff (engine.sound_reached operations) (Engine.indexed_reached clear free) copies set
    nameFree accepts iterates

end Exactness

section Sample

def peopleModel : Simple.Model :=
  { objectTypes := [user, identity], rules := [⟨user, identifier, identity, []⟩] }

def identifies (id name : String) : Relation :=
  { objectType := user, objectId := id.toList, relation := identifier, subjectType := identity,
    subjectId := name.toList, subjectRelation := [] }

def people : List (Operation Simple.Model) :=
  [.setObject peopleModel [] ⟨1, 0⟩ { type := user, id := "u1".toList },
    .setRelation peopleModel [] ⟨2, 0⟩ (identifies "u1" "alice"),
    .setRelation peopleModel [] ⟨3, 0⟩ (identifies "u2" "bob")]

theorem people_barFree : ∀ operation ∈ people, operation.BarFree := by
  simp [people, Operation.BarFree, barFree, identifies]

theorem people_directed : resolutionDirection Simple.library boltEngine.backend peopleModel
    (boltEngine.reached Simple.library people) = .userToIdentity := by
  decide +kernel

theorem alice_accepted : isSet "alice".toList ∧ barFree "alice".toList ∧
    Accepts Simple.library peopleModel "alice".toList .userToIdentity := by
  refine ⟨by decide, by simp [barFree], ?_, ?_, ?_⟩ <;> decide +kernel

theorem alice_resolved :
    ∃ found relation, (∀ other, Leads Simple.library boltEngine (boltEngine.reached Simple.library people)
        "alice".toList .userToIdentity other ↔ other = relation) ∧
      found = objectAt Simple.library boltEngine (boltEngine.reached Simple.library people) relation.ident.object := by
  obtain ⟨set, free, accepts⟩ := alice_accepted
  have resolves : (resolveIdentity Simple.library boltEngine.backend peopleModel (·.toList) "alice".toList
      (boltEngine.reached Simple.library people)).isOk = true := by decide +kernel
  cases resolved : resolveIdentity Simple.library boltEngine.backend peopleModel (·.toList) "alice".toList
      (boltEngine.reached Simple.library people) with
  | error failure =>
      rw [resolved] at resolves
      cases resolves
  | ok found =>
      exact ⟨found, (resolveIdentity_ok_iff simple_clearRows people_barFree rfl people_directed (fun _ => rfl) set
        free accepts fun _ => .refl _).mp resolved⟩

end Sample

end Eamerald.Identity
