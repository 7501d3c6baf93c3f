import Eamerald.Directory.ObjectRelations
import Eamerald.Directory.RoundTrip

/-! How one stored object appears in the answers of the service. All reads of objects replace the
display name by the one in the properties; the objects that come with relations are as stored. -/

set_option autoImplicit false

namespace Eamerald.Directory

open Foundation Store

variable {shown : Object} {object : Object} {objectType : GoString} {α : Type}
  {iterator : Iterator Object}

section Rows

theorem rowAt_decode {ω M κ : Type} [Ord κ] [Std.TransOrd κ] [Std.LawfulEqOrd κ] {codec : Codec ω M}
    {key : M → κ} {map : Std.ExtTreeMap κ ω} (decodes : Decodes codec key map) (zero : M)
    {entry : κ × ω} (listed : entry ∈ map.toList) :
    rowAt codec map (key (decode codec zero entry)) = some (decode codec zero entry) := by
  obtain ⟨unmarshalled, here⟩ := decodes.decoded zero listed
  rw [here]
  exact decodes.rowAt_eq_some.mpr
    ⟨entry.2, Std.ExtTreeMap.mem_toList_iff_getElem?_eq_some.mp listed, unmarshalled⟩

variable {ω μ : Type} [Wire ω μ] {library : Library μ} {engine : Engine ω} {state : engine.State}

def Engine.Stored (library : Library μ) (engine : Engine ω) (state : engine.State) (object : Object) :
    Prop :=
  objectPart.get ((engine.layout library).data state)
    ((engine.layout library).objects.key object.ident) = some object

theorem Engine.Stored.eq_of_ident {other : Object} (stored : engine.Stored library state object)
    (storedToo : engine.Stored library state other) (same : other.ident = object.ident) : other = object := by
  unfold Engine.Stored at storedToo
  rw [same] at storedToo
  exact Option.some.inj (storedToo.symm.trans stored)

variable (sound : (engine.layout library).sound state)

include sound

theorem Engine.Stored.read (stored : engine.Stored library state object) :
    (engine.backend (μ := μ)).exec (.getObject object.type object.id) state = (.ok object, state) := by
  have read := (engine.layout library).objects.read sound object.ident
  rw [show objectPart.get _ _ = some object from stored] at read
  exact read

theorem Engine.stored_of_read {objectId : GoString}
    (read : ((engine.backend (μ := μ)).exec (.getObject objectType objectId) state).1 = .ok object) :
    engine.Stored library state object := by
  have answer := (engine.layout library).objects.read sound ⟨objectType, objectId⟩
  have found : (objectPart.get ((engine.layout library).data state)
      ((engine.layout library).objects.key ⟨objectType, objectId⟩)).elim
        (.error (engine.layout library).objects.missing) .ok = Except.ok object :=
    (congrArg Prod.fst answer).symm.trans read
  cases here : objectPart.get ((engine.layout library).data state)
      ((engine.layout library).objects.key ⟨objectType, objectId⟩) with
  | none =>
      rw [here] at found
      cases found
  | some row =>
      rw [here] at found
      cases found
      have keyed := (engine.layout library).objects.keyed sound here
      unfold Engine.Stored
      rw [show (engine.layout library).objects.key object.ident = _ from keyed, here]

theorem Engine.stored_of_scanObjects {token : GoString}
    (scanned : ((engine.backend (μ := μ)).exec (.scanObjects objectType token) state).1 = .ok iterator) (listed : object ∈ iterator.values) : engine.Stored library state object := by
  cases engine with
  | bolt =>
      obtain ⟨bucket, found, decodes⟩ := (sound : Bolt.Filed state).objects
      have answered : Bolt.scanObjects objectType token state = .ok iterator := scanned
      simp only [Bolt.scanObjects, Bolt.scanIterator, Bolt.setBucket_of_some found] at answered
      cases answered
      simp only [Iterator.values, List.map_map, List.mem_map] at listed
      obtain ⟨entry, visited, rfl⟩ := listed
      have stored := rowAt_decode decodes Object.zero (mem_toList_of_mem_scan visited)
      exact (congrFun (Bolt.rowsOf_of_some found) _).trans stored
  | postgres server =>
      have answered : Postgres.scanObjects server objectType token state = .ok iterator := scanned
      unfold Postgres.scanObjects at answered
      split at answered
      · cases answered
      · cases answered
        simp only [Iterator.values, List.map_map, List.mem_map] at listed
        obtain ⟨entry, visited, rfl⟩ := listed
        have member := (List.mem_filter.mp ((Postgres.orderBy_perm _).mem_iff.mp visited)).1
        exact rowAt_decode (sound : Postgres.Filed state).objects Object.zero member

end Rows

section Answers

variable {μ σ : Type}

/-- The object appears as this in the answer to a call that reads objects. -/
inductive ShownAs (library : ReadLibrary μ) (backend : Backend μ σ) (state : σ) (ident : ObjectIdentifier)
    (shown : Object) : Prop where
  | getObject {model : μ} {ifNoneMatch : List GoString} {request : GetObjectRequest}
      {response : GetObjectResponse} (asked : ⟨request.objectType, request.objectId⟩ = ident)
      (answered : view backend (Reader.getObject library model ifNoneMatch request) state = .ok response)
      (result : response.result = some shown)
  | getObjectMany {model : μ} {param : List ObjectIdentifier} {results : List Object} {index : Nat}
      (asked : param[index]? = some ident)
      (answered : view backend (Reader.getObjectMany library model param) state = .ok results)
      (result : results[index]? = some shown)
  | getObjects {model : μ} {request : GetObjectsRequest} {response : GetObjectsResponse}
      (answered : view backend (getObjects library.toListLibrary model request) state = .ok response)
      (result : shown ∈ response.results) (named : shown.ident = ident)
  | exported {options : ExportOptions} {breaks : Option (Nat × Err)}
      (result : .object shown ∈ (exportResult backend options { breaks } state).2.sent)
      (named : shown.ident = ident)

/-- The object appears as this in the objects that come with relations. -/
inductive MappedAs (library : ReadLibrary μ) (backend : Backend μ σ) (state : σ) (ident : ObjectIdentifier)
    (shown : Object) : Prop where
  | getRelation {model : μ} {ifNoneMatch : List GoString} {request : GetRelationRequest}
      {response : GetRelationResponse} {key : GoString}
      (answered : view backend (getRelation library.toLibrary model ifNoneMatch request) state =
        .ok response)
      (result : response.objects[key]? = some shown) (named : shown.ident = ident)
  | getRelations {model : μ} {request : GetRelationsRequest} {response : GetRelationsResponse}
      {key : GoString}
      (answered : view backend (getRelations library.toListLibrary model request) state = .ok response)
      (result : response.objects[key]? = some shown) (named : shown.ident = ident)

/-- The display name in the properties, if there is one, is the display name. -/
def NamedAlike (object : Object) : Prop :=
  ∀ value, (object.properties.getD []).lookup propDisplayName = some value →
    PropertyValue.stringValue value = object.displayName

theorem patchObjectRead_eq_self_iff (object : Object) :
    patchObjectRead object = object ↔ NamedAlike object := by
  unfold patchObjectRead NamedAlike
  cases (object.properties.getD []).lookup propDisplayName with
  | none => simp
  | some value =>
      constructor
      · intro same other here
        cases here
        exact congrArg Object.displayName same
      · intro alike
        dsimp only
        rw [alike value rfl]

end Answers

section Reads

variable {μ σ : Type} {library : ReadLibrary μ} {model : μ} {backend : Backend μ σ} {state : σ}
  {param : List ObjectIdentifier} {ifNoneMatch : List GoString}

theorem run_of_view {program : Tx μ α} {value : α} (answered : view backend program state = .ok value) :
    ∃ after, program.run backend state = (.ok value, after) :=
  ⟨_, Prod.ext answered rfl⟩

theorem result_getObject {request : GetObjectRequest} {response : GetObjectResponse}
    (answered : view backend (Reader.getObject library model ifNoneMatch request) state = .ok response)
    (stored : backend.exec (.getObject request.objectType request.objectId) state = (.ok object, state))
    (result : response.result = some shown) : shown = patchObjectRead object := by
  obtain ⟨_, ran⟩ := run_of_view answered
  obtain ⟨_, _, ran⟩ := Program.run_check_ok ran
  obtain ⟨_, _, ran⟩ := Program.run_check_ok ran
  obtain ⟨_, _, read, ran⟩ := Program.run_bind_ok ran
  cases stored.symm.trans read
  split at ran
  · cases ran
    cases result
  · split at ran
    · obtain ⟨_, _, _, ran⟩ := Program.run_bind_ok ran
      cases ran
      exact (Option.some.inj result).symm
    · cases ran
      exact (Option.some.inj result).symm

theorem result_readObjects (reads : ∀ ident : ObjectIdentifier,
      (backend.exec (.getObject ident.objectType ident.objectId) state).2 = state) {before results : List Object} {after : σ}
    (ran : (readObjects param before).run backend state = (.ok results, after)) :
    ∃ objects, results = before ++ objects.map patchObjectRead ∧ List.Forall₂ (fun ident object =>
        backend.exec (.getObject ident.objectType ident.objectId) state = (.ok object, state))
          param objects := by
  induction param generalizing before with
  | nil =>
      cases ran
      exact ⟨[], (List.append_nil _).symm, .nil⟩
  | cons ident rest ih =>
      obtain ⟨object, next, read, continued⟩ := Program.run_bind_ok ran
      rw [Program.run_lift] at read
      have same : next = state := (congrArg Prod.snd read).symm.trans (reads ident)
      subst same
      obtain ⟨objects, rfl, found⟩ := ih continued
      refine ⟨object :: objects, ?_, .cons read found⟩
      rw [List.append_assoc, List.singleton_append, List.map_cons]

theorem exists_of_forall₂ {β : Type} {related : α → β → Prop} {left : List α} {right : List β}
    (all : List.Forall₂ related left right) {index : Nat} {item : α} (here : left[index]? = some item) :
    ∃ other, right[index]? = some other ∧ related item other := by
  obtain ⟨bound, rfl⟩ := List.getElem?_eq_some_iff.mp here
  have boundToo : index < right.length := all.length_eq ▸ bound
  exact ⟨right[index], List.getElem?_eq_getElem boundToo, all.get bound boundToo⟩

theorem result_getObjectMany (reads : ∀ ident : ObjectIdentifier,
      (backend.exec (.getObject ident.objectType ident.objectId) state).2 = state) {results : List Object} {index : Nat} {ident : ObjectIdentifier}
    (answered : view backend (Reader.getObjectMany library model param) state = .ok results)
    (asked : param[index]? = some ident) :
    ∃ object, backend.exec (.getObject ident.objectType ident.objectId) state = (.ok object, state) ∧
      results[index]? = some (patchObjectRead object) := by
  obtain ⟨_, ran⟩ := run_of_view answered
  obtain ⟨_, _, ran⟩ := Program.run_check_ok ran
  obtain ⟨_, _, ran⟩ := Program.run_check_ok ran
  obtain ⟨objects, rfl, found⟩ := result_readObjects reads ran
  obtain ⟨object, here, read⟩ := exists_of_forall₂ found asked
  exact ⟨object, read, by simp [here]⟩

theorem mem_page {iterator : Iterator α} {pageSize : Int32} {item : α}
    (taken : item ∈ (page iterator pageSize).items) : item ∈ iterator.values := by
  obtain ⟨rows, rest, split, items, _⟩ := takePage_cuts (fun _ => true) pageSize iterator.rows []
  have cut : item ∈ ([] : List α) ++ (rows.filter fun _ => true).map (·.value) := items ▸ taken
  rw [List.nil_append, List.filter_true] at cut
  rw [Iterator.values, split, List.map_append]
  exact List.mem_append_left _ cut

theorem result_getObjects {request : GetObjectsRequest} {response : GetObjectsResponse}
    (answered : view backend (getObjects library.toListLibrary model request) state = .ok response)
    (result : shown ∈ response.results) : ∃ objectType token iterator object,
      (backend.exec (.scanObjects objectType token) state).1 = .ok iterator ∧
        object ∈ iterator.values ∧ shown = patchObjectRead object := by
  have listed {after : σ} (ran : (listObjects request.objectType (request.page.getD ⟨maxPageSize, []⟩)).run
      backend state = (.ok response, after)) :
      ∃ objectType token iterator object,
        (backend.exec (.scanObjects objectType token) state).1 = .ok iterator ∧
          object ∈ iterator.values ∧ shown = patchObjectRead object := by
    obtain ⟨iterator, _, scanned, answer⟩ := Program.run_bind_ok ran
    cases answer
    obtain ⟨object, taken, rfl⟩ := List.mem_map.mp result
    exact ⟨_, _, iterator, object, congrArg Prod.fst scanned, mem_page taken, rfl⟩
  obtain ⟨_, ran⟩ := run_of_view answered
  obtain ⟨_, _, ran⟩ := Program.run_check_ok ran
  split at ran
  · obtain ⟨_, _, ran⟩ := Program.run_check_ok ran
    exact listed ran
  · exact listed ran

theorem sent_sendAll (stream : Outgoing) (messages : List ExportMessage) :
    (stream.sendAll messages).2.sent ⊆ stream.sent ++ messages := by
  induction messages generalizing stream with
  | nil => simp [Outgoing.sendAll]
  | cons message rest ih =>
      unfold Outgoing.sendAll
      rcases stream.send_cases message with ⟨error, _, refused⟩ | ⟨next, taken, sent, _⟩
      · rw [refused]
        exact List.subset_append_left _ _
      · rw [taken]
        have more := ih next
        rw [sent, List.append_assoc, List.singleton_append] at more
        exact more

theorem result_exported {options : ExportOptions} {breaks : Option (Nat × Err)} {objects : Iterator Object}
    {relations : Iterator Relation}
    (scansObjects : backend.exec (.scanObjects [] []) state = (.ok objects, state))
    (scansRelations : backend.exec (.scanRelations .byObject {} []) state = (.ok relations, state))
    (result : .object shown ∈ (exportResult backend options { breaks } state).2.sent) :
    ∃ object ∈ objects.values, patchObjectRead object = shown := by
  obtain ⟨objectSource, fromObjects, _⟩ := exists_scansFrom scansObjects .zero
  obtain ⟨relationSource, fromRelations, _⟩ := exists_scansFrom scansRelations .zero
  cases scansObjects.symm.trans fromObjects
  rw [exportResult, view, run_exportData fromObjects fromRelations] at result
  have sent := sent_sendAll _ _ result
  rw [List.nil_append] at sent
  unfold exportMessages at sent
  split at sent
  · cases List.mem_singleton.mp sent
  · rcases List.mem_append.mp sent with sent | sent
    · split at sent
      · obtain ⟨object, listed, same⟩ := List.mem_map.mp sent
        cases same
        exact ⟨object, listed, rfl⟩
      · cases sent
    · split at sent
      · obtain ⟨relation, _, same⟩ := List.mem_map.mp sent
        cases same
      · cases sent

/-- A stored object, or a bare one where nothing is stored. -/
def Fetched (backend : Backend μ σ) (state : σ) (object : Object) : Prop :=
  ∃ ident : ObjectIdentifier,
    (backend.exec (.getObject ident.objectType ident.objectId) state).1 = .ok object ∨
      (∃ error, (backend.exec (.getObject ident.objectType ident.objectId) state).1 = .error error) ∧
        object = { type := ident.objectType, id := ident.objectId }

section Fetching

variable (reads : ∀ ident : ObjectIdentifier,
  (backend.exec (.getObject ident.objectType ident.objectId) state).2 = state) {key : GoString}

include reads

theorem run_endpoint_fetched (objectType objectId : GoString) :
    ∃ object, (endpoint (μ := μ) objectType objectId).run backend state = (.ok object, state) ∧
      Fetched backend state object := by
  have same := reads ⟨objectType, objectId⟩
  simp only [endpoint, Program.bind_eq, Program.run_bind, Program.run_attempt, Program.run_lift]
  cases read : backend.exec (.getObject objectType objectId) state with
  | mk answer after =>
      rw [read] at same
      cases same
      cases answer with
      | ok object => exact ⟨object, rfl, ⟨objectType, objectId⟩, .inl (congrArg Prod.fst read)⟩
      | error error =>
          exact ⟨_, rfl, ⟨objectType, objectId⟩, .inr ⟨⟨error, congrArg Prod.fst read⟩, rfl⟩⟩

theorem run_getWithObjects_fetched (relations : List Relation) {objects : Named Object}
    (before : ∀ (key : GoString) (object : Object), objects[key]? = some object →
      Fetched backend state object) :
    ∃ found, (getWithObjects (μ := μ) relations objects).run backend state = (.ok found, state) ∧
      ∀ (key : GoString) (object : Object), found[key]? = some object → Fetched backend state object := by
  induction relations generalizing objects with
  | nil => exact ⟨objects, rfl, before⟩
  | cons relation rest ih =>
      obtain ⟨subject, subjectRead, subjectFetched⟩ :=
        run_endpoint_fetched reads relation.subjectType relation.subjectId
      obtain ⟨object, objectRead, objectFetched⟩ :=
        run_endpoint_fetched reads relation.objectType relation.objectId
      simp only [getWithObjects, Program.bind_eq, Program.run_bind, subjectRead, objectRead]
      refine ih fun key found here => ?_
      rw [Std.ExtTreeMap.getElem?_insert, Std.ExtTreeMap.getElem?_insert] at here
      split at here
      · cases here
        exact objectFetched
      · split at here
        · cases here
          exact subjectFetched
        · exact before key found here

theorem fetched_of_getWithObjects {relations : List Relation} {objects : Named Object} {after : σ}
    (read : (getWithObjects (μ := μ) relations ∅).run backend state = (.ok objects, after))
    (result : objects[key]? = some shown) : Fetched backend state shown := by
  have start (key : GoString) (object : Object) (here : (∅ : Named Object)[key]? = some object) :
      Fetched backend state object := by
    simp at here
  obtain ⟨found, ran, fetched⟩ := run_getWithObjects_fetched reads relations start
  cases ran.symm.trans read
  exact fetched key shown result

variable (scans : ∀ (direction : Direction) (filter : RelationFilter) (token : GoString),
  (backend.exec (.scanRelations direction filter token) state).2 = state)

include scans

theorem fetched_getRelation {request : GetRelationRequest} {response : GetRelationResponse}
    (answered : view backend (getRelation library.toLibrary model ifNoneMatch request) state = .ok response)
    (result : response.objects[key]? = some shown) : Fetched backend state shown := by
  obtain ⟨_, ran⟩ := run_of_view answered
  obtain ⟨_, _, ran⟩ := Program.run_check_ok ran
  obtain ⟨_, _, ran⟩ := Program.run_check_ok ran
  obtain ⟨⟨direction, filter⟩, _, ran⟩ := Program.run_check_ok ran
  obtain ⟨iterator, next, scanned, presented⟩ := Program.run_bind_ok ran
  have same : next = state := (congrArg Prod.snd scanned).symm.trans (scans _ _ _)
  subst same
  split at presented
  · cases presented
  · unfold presentRelation at presented
    split at presented
    · cases presented
      simp at result
    · split at presented
      · obtain ⟨objects, _, read, answer⟩ := Program.run_bind_ok presented
        cases answer
        exact fetched_of_getWithObjects reads read result
      · cases presented
        simp at result
  · cases presented

theorem fetched_getRelations {request : GetRelationsRequest} {response : GetRelationsResponse}
    (answered : view backend (getRelations library.toListLibrary model request) state = .ok response)
    (result : response.objects[key]? = some shown) : Fetched backend state shown := by
  obtain ⟨_, ran⟩ := run_of_view answered
  obtain ⟨_, _, ran⟩ := Program.run_check_ok ran
  obtain ⟨_, _, ran⟩ := Program.run_check_ok ran
  obtain ⟨iterator, next, scanned, listed⟩ := Program.run_bind_ok ran
  have same : next = state := (congrArg Prod.snd scanned).symm.trans (scans _ _ _)
  subst same
  obtain ⟨_, _, listed⟩ := Program.run_check_ok listed
  split at listed
  · obtain ⟨objects, _, read, answer⟩ := Program.run_bind_ok listed
    cases answer
    exact fetched_of_getWithObjects reads read result
  · cases listed
    simp at result

end Fetching

end Reads

section Engines

variable {ω μ : Type} [Wire ω μ] {library : ReadLibrary μ} {engine : Engine ω} {state : engine.State}

theorem Engine.getObject_state (engine : Engine ω) (objectType objectId : GoString) (state : engine.State) :
    ((engine.backend (μ := μ)).exec (.getObject objectType objectId) state).2 = state := by
  cases engine <;> rfl

theorem Engine.scanRelations_state (engine : Engine ω) (direction : Direction) (filter : RelationFilter)
    (token : GoString) (state : engine.State) :
    ((engine.backend (μ := μ)).exec (.scanRelations direction filter token) state).2 = state := by
  cases engine <;> rfl

variable (sound : (engine.layout library.toLibrary).sound state) {object shown : Object}
  (stored : engine.Stored library.toLibrary state object)

include sound stored

theorem Fetched.eq_of_stored (fetched : Fetched (engine.backend (μ := μ)) state shown)
    (same : shown.ident = object.ident) : shown = object := by
  obtain ⟨ident, read | ⟨⟨error, missing⟩, rfl⟩⟩ := fetched
  · exact stored.eq_of_ident (Engine.stored_of_read sound read) same
  · obtain ⟨sameType, sameId⟩ := ObjectIdentifier.mk.inj same
    have read := congrArg Prod.fst (stored.read sound)
    rw [← sameType, ← sameId, missing] at read
    cases read

theorem eq_patch_of_scanned {token : GoString} {row : Object}
    (scanned : ((engine.backend (μ := μ)).exec (.scanObjects objectType token) state).1 = .ok iterator)
    (listed : row ∈ iterator.values) (same : (patchObjectRead row).ident = object.ident) :
    patchObjectRead row = patchObjectRead object := by
  rw [ident_patchObjectRead] at same
  rw [stored.eq_of_ident (Engine.stored_of_scanObjects sound scanned listed) same]

theorem MappedAs.eq_stored
    (mapped : MappedAs library engine.backend state object.ident shown) : shown = object := by
  have reads (ident : ObjectIdentifier) := engine.getObject_state (μ := μ) ident.objectType ident.objectId state
  have scans (direction : Direction) (filter : RelationFilter) (token : GoString) :=
    engine.scanRelations_state (μ := μ) direction filter token state
  cases mapped with
  | getRelation answered result named =>
      exact (fetched_getRelation reads scans answered result).eq_of_stored sound stored named
  | getRelations answered result named =>
      exact (fetched_getRelations reads scans answered result).eq_of_stored sound stored named

theorem ShownAs.eq_patched (shows : ShownAs library engine.backend state object.ident shown) :
    shown = patchObjectRead object := by
  cases shows with
  | getObject asked answered result =>
      obtain ⟨sameType, sameId⟩ := ObjectIdentifier.mk.inj asked
      have read := stored.read sound
      rw [← sameType, ← sameId] at read
      exact result_getObject answered read result
  | getObjectMany asked answered result =>
      obtain ⟨found, read, same⟩ := result_getObjectMany
        (fun ident => engine.getObject_state ident.objectType ident.objectId state) answered asked
      cases (stored.read sound).symm.trans read
      exact Option.some.inj (result.symm.trans same)
  | getObjects answered result named =>
      obtain ⟨_, _, iterator, row, scanned, listed, rfl⟩ := result_getObjects answered result
      exact eq_patch_of_scanned sound stored scanned listed named
  | exported result named =>
      obtain ⟨objects, scannedObjects, _⟩ := (engine.layout library.toLibrary).objects.scans sound
      obtain ⟨relations, scannedRelations, _⟩ := (engine.layout library.toLibrary).relations.scans sound
      obtain ⟨row, listed, rfl⟩ := result_exported scannedObjects scannedRelations result
      exact eq_patch_of_scanned sound stored (congrArg Prod.fst scannedObjects) listed named

/-- A stored object appears in all reads of objects with its display name taken from its
properties, and in the objects that come with relations as it is stored. The two agree exactly if
its properties have no display name or the same one. -/
theorem object_views_agree_iff :
    (∀ shown, ShownAs library engine.backend state object.ident shown →
      shown = patchObjectRead object) ∧
    (∀ mapped, MappedAs library engine.backend state object.ident mapped → mapped = object) ∧
    ∀ shown mapped, ShownAs library engine.backend state object.ident shown →
      MappedAs library engine.backend state object.ident mapped →
        (shown = mapped ↔ NamedAlike object) := by
  refine ⟨fun _ shows => shows.eq_patched sound stored, fun _ maps => maps.eq_stored sound stored, ?_⟩
  intro shown mapped shows maps
  rw [shows.eq_patched sound stored, maps.eq_stored sound stored]
  exact patchObjectRead_eq_self_iff object

end Engines

section Documents

variable {properties : Option (List (GoString × PropertyValue))}

def titledDocument (properties : Option (List (GoString × PropertyValue))) :
    Bolt.BoltDB (Blob Simple.Model) :=
  boltEngine.reached Simple.library
    [.setObject Simple.viewersModel [] ⟨1, 0⟩ { viewedDocument with properties },
      .setRelation Simple.viewersModel [] ⟨2, 0⟩ tenthViewer]

def documentRead (properties : Option (List (GoString × PropertyValue))) : Except Err (Option Object) :=
  (view Bolt.backend readDocument (titledDocument properties)).map GetObjectResponse.result

def documentMapped (properties : Option (List (GoString × PropertyValue))) : Except Err (Option Object) :=
  (view Bolt.backend
    (getRelation Simple.library Simple.viewersModel []
      { objectType := tenthViewer.objectType, objectId := tenthViewer.objectId,
        relation := tenthViewer.relation, subjectType := tenthViewer.subjectType,
        subjectId := tenthViewer.subjectId, withObjects := true })
    (titledDocument properties)).map fun response => response.objects[strKey viewedDocument]?

theorem exists_of_answer {β : Type} (answer : Except Err α) (look : α → β) (value : β)
    (known : answer.map look = .ok value) : ∃ response, answer = .ok response ∧ look response = value := by
  cases answer with
  | error error => cases known
  | ok response => exact ⟨response, rfl, Except.ok.inj known⟩

theorem documentRead_shown (read : documentRead properties = .ok (some shown)) :
    ShownAs simpleReads Bolt.backend (titledDocument properties) viewedDocument.ident shown := by
  obtain ⟨response, answered, result⟩ := exists_of_answer _ _ _ read
  exact .getObject rfl answered result

theorem documentMapped_mapped {mapped : Object}
    (read : documentMapped properties = .ok (some mapped)) (named : mapped.ident = viewedDocument.ident) :
    MappedAs simpleReads Bolt.backend (titledDocument properties) viewedDocument.ident mapped := by
  obtain ⟨response, answered, result⟩ := exists_of_answer _ _ _ read
  exact .getRelation answered result named

theorem untitled_document_shown_alike :
    ∃ shown, ShownAs simpleReads Bolt.backend (titledDocument none) viewedDocument.ident shown ∧
      MappedAs simpleReads Bolt.backend (titledDocument none) viewedDocument.ident shown := by
  have sound : (boltEngine.layout simpleReads.toLibrary).sound (titledDocument none) :=
    boltEngine.sound_reached _
  obtain ⟨object, read, known⟩ := exists_of_answer
    ((boltEngine.backend (μ := Simple.Model)).exec
      (.getObject viewedDocument.type viewedDocument.id) (titledDocument none)).1
    (fun object => (object.ident, ((object.properties.getD []).lookup propDisplayName).isNone))
    (viewedDocument.ident, true) (by decide +kernel)
  obtain ⟨named, untitled⟩ := Prod.mk.inj known
  obtain ⟨_ | shown, answered, known⟩ := exists_of_answer (documentRead none) Option.isSome
    true (by decide +kernel)
  · cases known
  obtain ⟨_ | mapped, alongside, known⟩ := exists_of_answer (documentMapped none)
    (Option.map Object.ident) (some viewedDocument.ident) (by decide +kernel)
  · cases known
  have shows := documentRead_shown answered
  have maps := documentMapped_mapped alongside (Option.some.inj known)
  have stored : boltEngine.Stored simpleReads.toLibrary (titledDocument none) object :=
    Engine.stored_of_read sound read
  have agree := (object_views_agree_iff sound stored).2.2
  rw [named] at agree
  have same := (agree shown mapped shows maps).mpr fun value found => by
    rw [found] at untitled
    cases untitled
  exact ⟨shown, shows, same ▸ maps⟩

/-- A document whose title is in its properties has it as its display name in `GetObject`, and has
no display name where it comes with a relation. -/
theorem titled_document_shown_differently :
    let properties := some [(propDisplayName, PropertyValue.string "Report".toList)]
    (documentRead properties).map (Option.map Object.displayName) = .ok (some "Report".toList) ∧
      (documentMapped properties).map (Option.map Object.displayName) = .ok (some []) := by
  decide +kernel

end Documents

end Eamerald.Directory
