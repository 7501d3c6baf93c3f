import Eamerald.Directory.Engines

/-! Exporting a directory and importing it into an empty one. The rows arrive as they
are listed, in any order, unless the keys of two of them coincide in the new store or it
does not take one of them. -/

set_option autoImplicit false

namespace Eamerald.Directory

open Foundation Store

variable {entries : List Entry} {entry : Entry} (sent : List ExportMessage)
  {relations : Iterator Relation} {order : List ExportMessage}

section Messages

/-- The row as it is listed and exported. -/
def Entry.shown : Entry → Entry
  | .object message => .object (patchObjectRead message)
  | .relation message => .relation message

def Entry.message : Entry → ExportMessage
  | .object message => .object message
  | .relation message => .relation message

def ExportMessage.entry? : ExportMessage → Option Entry
  | .object message => some (.object message)
  | .relation message => some (.relation message)
  | .stats _ => none

def ExportMessage.setRequest : ExportMessage → ImportRequest
  | .object message => ⟨.set, .object (some message)⟩
  | .relation message => ⟨.set, .relation (some message)⟩
  | .stats _ => ⟨.set, .unset⟩

def Entry.importable {μ : Type} (library : Library μ) (model : μ) : Entry → Bool
  | .object message => (validateImportObject library model (some message)).isOk
  | .relation message => (validateImportRelation library model (some message)).isOk

@[simp] theorem entry?_message (entry : Entry) : entry.message.entry? = some entry := by
  cases entry <;> rfl

theorem entries_of_messages (entries : List Entry) :
    (entries.map Entry.message).filterMap ExportMessage.entry? = entries := by
  simp [List.filterMap_map]

theorem exists_entries_of_perm (permuted : order.Perm (entries.map Entry.message)) :
    ∃ items : List Entry, items.Perm entries ∧ order = items.map Entry.message := by
  have carried (message : ExportMessage) (member : message ∈ order) :
      ∃ entry : Entry, entry.message = message := by
    obtain ⟨entry, _, same⟩ := List.mem_map.mp (permuted.mem_iff.mp member)
    exact ⟨entry, same⟩
  have items := permuted.filterMap ExportMessage.entry?
  rw [entries_of_messages] at items
  refine ⟨_, items, ?_⟩
  clear items permuted
  induction order with
  | nil => rfl
  | cons message rest ih =>
      obtain ⟨entry, rfl⟩ := carried message List.mem_cons_self
      rw [List.filterMap_cons_some (entry?_message entry), List.map_cons,
        ← ih fun other member => carried other (List.mem_cons_of_mem _ member)]

theorem ident_patchObjectRead (object : Object) : (patchObjectRead object).ident = object.ident := by
  unfold patchObjectRead
  split <;> rfl

theorem bare_shown (entry : Entry) : entry.shown.bare = entry.bare.shown := by
  cases entry with
  | relation message => rfl
  | object message =>
      simp only [Entry.shown, Entry.bare, patchObjectRead]
      cases (message.properties.getD []).lookup propDisplayName <;> rfl

theorem shown_shown (entry : Entry) : entry.shown.shown = entry.shown := by
  cases entry with
  | relation message => rfl
  | object message =>
      simp only [Entry.shown, patchObjectRead]
      cases found : (message.properties.getD []).lookup propDisplayName <;> simp [found]

theorem bare_of_shown {stored : Entry} (same : stored.bare = entry.shown.bare) :
    stored.shown.bare = entry.shown.bare := by
  rw [bare_shown, same, ← bare_shown, shown_shown]

section Places

variable {μ σ κ ι ν : Type} [DecidableEq κ] [DecidableEq ι] {library : Library μ}
  {backend : Backend μ σ} (layout : Layout library backend κ ι ν)

@[simp] theorem Layout.place_shown (entry : Entry) : layout.place entry.shown = layout.place entry := by
  cases entry with
  | relation message => rfl
  | object message =>
      have same : (patchObjectRead message).ident = message.ident := by
        unfold patchObjectRead
        split <;> rfl
      exact congrArg (fun ident => Sum.inl (layout.objects.key ident)) same

/-- The entries are the rows of the store, each once and as it is shown. -/
structure Layout.Shows (state : σ) (entries : List Entry) : Prop where
  distinct : (entries.map layout.place).Nodup
  listed : ∀ entry, entry ∈ entries ↔
    ∃ stored, stored.shown = entry ∧ layout.entry state (layout.place entry) = some stored

variable {layout} {state : σ} {entries : List Entry}

theorem Layout.shows_of_scans (sound : layout.sound state) {objects : Iterator Object}
    (scansObjects : backend.exec (.scanObjects [] []) state = (.ok objects, state))
    (scansRelations : backend.exec (.scanRelations .byObject {} []) state = (.ok relations, state)) :
    layout.Shows state ((entriesOf objects.values relations.values).map Entry.shown) := by
  obtain ⟨distinct, listed⟩ := layout.scans_all sound scansObjects scansRelations
  constructor
  · rw [List.map_map]
    simpa [Function.comp_def] using distinct
  · intro entry
    rw [List.mem_map]
    constructor
    · rintro ⟨stored, member, rfl⟩
      rw [layout.place_shown]
      exact ⟨stored, rfl, (listed stored).mp member⟩
    · rintro ⟨stored, rfl, found⟩
      rw [layout.place_shown] at found
      exact ⟨stored, (listed stored).mpr found, rfl⟩

theorem Layout.Shows.entry_bare (shows : layout.Shows state entries) {stored : Entry}
    (member : entry ∈ entries) (same : stored.bare = entry.bare) : stored.shown.bare = entry.bare := by
  obtain ⟨original, rfl, _⟩ := (shows.listed entry).mp member
  exact bare_of_shown same

theorem Layout.place_eq_of_bare {other : Entry} (same : entry.bare = other.bare) :
    layout.place entry = layout.place other := by
  rw [← layout.place_bare entry, same, layout.place_bare]

end Places

end Messages

section Listing

variable {μ : Type}

/-- What a listing of all objects and relations needs of the request validators and the
model library. -/
structure ListLibrary.ListsAll (library : ListLibrary μ) (model : μ) (pageSize : Int32) : Prop where
  objects : ∀ token, library.getObjectsRequest { page := some ⟨pageSize, token⟩ } = .ok ()
  relations : library.Accepts model {} ⟨⟨[], [], [], [], [], []⟩, false⟩ pageSize
  incomplete : library.isComplete ⟨[], []⟩ = false

def Lists {σ : Type} (library : ListLibrary μ) (model : μ) (pageSize : Int32) (backend : Backend μ σ)
    (state : σ) (entries : List Entry) : Prop :=
  ∃ objects relations, Enumerates [] (objectPages library model backend state pageSize []) [] objects ∧
    Enumerates [] (relationPages library model backend state pageSize {}) [] relations ∧
    entries = entriesOf objects relations

theorem Lists.unique {σ : Type} {library : ListLibrary μ} {model : μ} {pageSize : Int32}
    {backend : Backend μ σ} {state : σ} {others : List Entry}
    (first : Lists library model pageSize backend state entries)
    (second : Lists library model pageSize backend state others) : entries = others := by
  obtain ⟨objects, relations, listsObjects, listsRelations, rfl⟩ := first
  obtain ⟨objectsAgain, relationsAgain, listsObjectsAgain, listsRelationsAgain, rfl⟩ := second
  rw [listsObjects.unique listsObjectsAgain, listsRelations.unique listsRelationsAgain]

def allData : ExportOptions := { dataObjects := true, dataRelations := true }

theorem sendAll_unbroken (messages : List ExportMessage) :
    Outgoing.sendAll { sent } messages = (.ok (), { sent := sent ++ messages }) := by
  induction messages generalizing sent with
  | nil => rw [List.append_nil]; rfl
  | cons message rest ih =>
      refine (ih (sent ++ [message])).trans ?_
      rw [List.append_assoc, List.singleton_append]

theorem exportResult_all {σ : Type} {backend : Backend μ σ} {state : σ} {objects : Iterator Object}
    (scansObjects : backend.exec (.scanObjects [] []) state = (.ok objects, state))
    (scansRelations : backend.exec (.scanRelations .byObject {} []) state = (.ok relations, state))
    (stream : Outgoing) : exportResult backend allData stream state = stream.sendAll
      (((entriesOf objects.values relations.values).map Entry.shown).map Entry.message) := by
  obtain ⟨objectSource, fromObjects, _⟩ := exists_scansFrom scansObjects .zero
  obtain ⟨relationSource, fromRelations, _⟩ := exists_scansFrom scansRelations .zero
  cases scansObjects.symm.trans fromObjects
  cases scansRelations.symm.trans fromRelations
  have messages : exportMessages allData objectSource relationSource =
      ((entriesOf (objectSource.iterator .zero).values (relationSource.iterator .zero).values).map
        Entry.shown).map Entry.message := by
    rw [entriesOf, List.map_append, List.map_append, List.map_map, List.map_map, List.map_map,
      List.map_map]
    rfl
  rw [exportResult, view, run_exportData fromObjects fromRelations, messages]

variable {ω : Type} [Wire ω μ] {engine : Engine ω} {state : engine.State} {library : ListLibrary μ}
  {model : μ} {pageSize : Int32}

/-- The rows of a store: what is listed is what is exported, each row once, as it is shown. -/
theorem exists_listing (lawful : engine.Lawful) (lists : library.ListsAll model pageSize)
    (sound : (engine.layout library.toLibrary).sound state) :
    ∃ entries : List Entry, Lists library model pageSize engine.backend state entries ∧
      exportResult (μ := μ) engine.backend allData {} state = (.ok (), { sent := entries.map Entry.message }) ∧
      (engine.layout library.toLibrary).Shows state entries := by
  obtain ⟨objectRows, resumesObjects⟩ := engine.resumes_objects lawful sound
  obtain ⟨relationRows, resumesRelations⟩ := engine.resumes_relations lawful sound
  have shows : entriesOf ((objectRows.map (·.value)).map patchObjectRead) (relationRows.map (·.value)) =
      (entriesOf (objectRows.map (·.value)) (relationRows.map (·.value))).map Entry.shown := by
    simp [entriesOf, Entry.shown, Function.comp_def]
  refine ⟨_, ⟨(objectRows.map (·.value)).map patchObjectRead, relationRows.map (·.value), ?_, ?_, shows.symm⟩,
    ?_, Layout.shows_of_scans sound resumesObjects.first resumesRelations.first⟩
  · exact enumerates_objectPages resumesObjects lists.objects fun typed => absurd rfl typed
  · have direction : (SafeRelation.direction library.toLibrary ⟨⟨[], [], [], [], [], []⟩, false⟩).1 =
        .byObject := by
      simp [SafeRelation.direction, RelationIdentifier.object, RelationIdentifier.subject,
        lists.incomplete]
    have every (relation : Relation) :
        SafeRelation.valueFilter ⟨⟨[], [], [], [], [], []⟩, false⟩ relation.ident = true := by
      simp [SafeRelation.valueFilter]
    have listed : Enumerates [] (relationPages library model engine.backend state pageSize {}) [] _ :=
      enumerates_relationPages lists.relations (by rw [direction]; exact resumesRelations)
    simpa [every] using listed
  · rw [exportResult_all resumesObjects.first resumesRelations.first]
    exact sendAll_unbroken [] _

end Listing

section Importing

variable {μ σ κ ι ν : Type} [DecidableEq κ] [DecidableEq ι] {library : Library μ}
  {backend : Backend μ σ} (layout : Layout library backend κ ι ν) {model : μ} {state : σ}
  {received : List (Received μ)}

def Sets (model : μ) (received : Received μ) (entry : Entry) : Prop :=
  received.model = model ∧ received.request = entry.message.setRequest

theorem importHandler_eq (importable : entry.importable library model = true) (now : Timestamp) :
    importHandler library model now entry.message.setRequest = entry.store library now := by
  cases entry with
  | object message =>
      simp only [Entry.message, ExportMessage.setRequest, importHandler, objectSetHandler, Entry.store]
      cases checked : validateImportObject library model (some message) with
      | error error =>
          rw [Entry.importable, checked] at importable
          cases importable
      | ok row =>
          cases eq_of_validateImportObject checked
          exact Program.done_ok_bind _ _
  | relation message =>
      simp only [Entry.message, ExportMessage.setRequest, importHandler, relationSetHandler, Entry.store]
      cases checked : validateImportRelation library model (some message) with
      | error error =>
          rw [Entry.importable, checked] at importable
          cases importable
      | ok row =>
          cases eq_of_validateImportRelation checked
          exact Program.done_ok_bind _ _

theorem run_importRequests_cons (backend : Backend μ σ) {received : Received μ}
    (sets : Sets model received entry) (importable : entry.importable library model = true)
    (rest : List (Received μ)) (counters : Counters) (statuses : List ImportStatus) (state : σ) :
    ∃ counted, (importRequests library (received :: rest) counters statuses).run backend state =
      (importRequests library rest counted (statuses ++ (importStatus? received.request
        ((entry.store library received.now).run backend state).1).toList)).run backend
        ((entry.store library received.now).run backend state).2 := by
  obtain ⟨rfl, request⟩ := sets
  simp only [importRequests, Program.bind_eq, Program.run_bind, Program.run_attempt, request,
    importHandler_eq importable]
  exact ⟨_, rfl⟩

variable (hashed : ∀ entry : Entry, entry.hash library ≠ [])

include hashed

theorem run_importRequests (sets : List.Forall₂ (Sets model) received entries)
    (importable : ∀ entry ∈ entries, entry.importable library model = true)
    (sound : layout.sound state) (counters : Counters) (statuses : List ImportStatus) :
    ∃ counted more after, (importRequests library received counters statuses).run backend state =
        (.ok (counted, statuses ++ more), after) ∧ layout.sound after ∧
      (more = [] → layout.TakesAll entries state after) ∧
      ((∀ entry ∈ entries, layout.Fits entry) → more = []) := by
  induction sets generalizing counters statuses state with
  | nil => exact ⟨counters, [], state, by rw [List.append_nil]; rfl, sound, fun _ => rfl, fun _ => rfl⟩
  | @cons first entry rest entries sets _ ih =>
      obtain ⟨counted, ran⟩ := run_importRequests_cons backend sets
        (importable entry List.mem_cons_self) rest counters statuses state
      have others := fun other member => importable other (List.mem_cons_of_mem entry member)
      rw [ran]
      rcases layout.run_store hashed first.now entry sound with
        ⟨middle, stored, kept, _, takes⟩ | ⟨large, error, status, failed⟩
      · rw [stored]
        obtain ⟨total, more, after, finished, keptAfter, all, fine⟩ := ih others kept counted statuses
        refine ⟨total, more, after, ?_, keptAfter, ?_, ?_⟩
        · rw [importStatus?, Option.toList_none, List.append_nil]
          exact finished
        · exact fun none => ⟨middle, takes, all none⟩
        · exact fun fits => fine fun other member => fits other (List.mem_cons_of_mem _ member)
      · rw [failed, importStatus?, if_pos status, Option.toList_some]
        obtain ⟨total, more, after, finished, keptAfter, _, _⟩ := ih others sound counted
          (statuses ++ [⟨error, first.request⟩])
        refine ⟨total, ⟨error, first.request⟩ :: more, after, ?_, keptAfter, (nomatch ·), fun fits => ?_⟩
        · rw [List.append_assoc, List.singleton_append] at finished
          exact finished
        · exact absurd (fits entry List.mem_cons_self) large

theorem run_importRequests_again (sets : List.Forall₂ (Sets model) received entries)
    (importable : ∀ entry ∈ entries, entry.importable library model = true) (sound : layout.sound state)
    (stored : ∀ entry ∈ entries, ∃ old, layout.entry state (layout.place entry) = some old ∧
      old.etag = entry.hash library) (counters : Counters) (statuses : List ImportStatus) :
    ∃ counted, (importRequests library received counters statuses).run backend state =
      (.ok (counted, statuses), state) := by
  induction sets generalizing counters statuses with
  | nil => exact ⟨counters, rfl⟩
  | @cons first entry rest entries sets _ ih =>
      obtain ⟨counted, ran⟩ := run_importRequests_cons backend sets
        (importable entry List.mem_cons_self) rest counters statuses state
      obtain ⟨old, found, tag⟩ := stored entry List.mem_cons_self
      rw [ran, layout.run_store_of_tagged hashed first.now sound found (.inl tag), importStatus?,
        Option.toList_none, List.append_nil]
      exact ih (fun other member => importable other (List.mem_cons_of_mem _ member))
        (fun other member => stored other (List.mem_cons_of_mem _ member)) counted statuses

omit hashed in
theorem update_importStream {counted : Counters} {statuses : List ImportStatus} {after : σ}
    (ran : (importRequests library received {} []).run backend state = (.ok (counted, statuses), after)) :
    update backend (importStream library received (.eof (.ok ⟨⟩))) state =
      (.ok (counted, statuses), after) := by
  refine Program.commit_ok.mpr ?_
  rw [importStream, Program.bind_eq, Program.run_bind, ran]
  rfl

end Importing

section Reproduction

variable {ω μ : Type} [Wire ω μ] (library : ListLibrary μ) (model : μ) (pageSize : Int32)
  (source target : Engine ω)

structure Vacant (engine : Engine ω) (state : engine.State) : Prop where
  sound : (engine.layout library.toLibrary).sound state
  vacant : ∀ place, (engine.layout library.toLibrary).entry state place = none

def exported (state : source.State) : List ExportMessage :=
  (exportResult (μ := μ) source.backend allData {} state).2.sent

/-- In the other store the exported rows have keys of their own, and it takes them all. -/
def KeysApart (sent : List ExportMessage) : Prop :=
  ((sent.filterMap ExportMessage.entry?).map (target.layout library.toLibrary).place).Nodup ∧
    ∀ entry ∈ sent.filterMap ExportMessage.entry?, (target.layout library.toLibrary).Fits entry

/-- Both stores list the same rows apart from metadata, and importing again changes nothing. -/
def Reproduces (original : source.State) (copy : target.State) (received : List (Received μ)) : Prop :=
  (exportResult (μ := μ) source.backend allData {} original).1 = .ok () ∧
    ∃ counters after,
      update target.backend (importStream library.toLibrary received (.eof (.ok ⟨⟩))) copy =
        (.ok (counters, []), after) ∧
      (∃ entries others, Lists library model pageSize source.backend original entries ∧
        Lists library model pageSize target.backend after others ∧
        (others.map Entry.bare).Perm (entries.map Entry.bare)) ∧
      ∀ again : List (Received μ), again.map (·.request) = received.map (·.request) →
        (∀ request ∈ again, request.model = model) →
        (update target.backend (importStream library.toLibrary again (.eof (.ok ⟨⟩))) after).2 = after

variable {library model pageSize source target}

section Copies

variable {σ ρ κ ι ν κ' ι' ν' : Type} [DecidableEq κ] [DecidableEq ι] [DecidableEq κ'] [DecidableEq ι']
  {plain : Library μ} {backend : Backend μ σ} {other : Backend μ ρ}
  {layout : Layout plain backend κ ι ν} {copyLayout : Layout plain other κ' ι' ν'}
  {original : σ} {copy after : ρ} {entries items others : List Entry}

theorem copied_of_takes (takes : copyLayout.TakesAll items copy after)
    (distinct : (items.map copyLayout.place).Nodup) (vacant : ∀ place, copyLayout.entry copy place = none) (member : entry ∈ items) :
    ∃ new : Entry, copyLayout.entry after (copyLayout.place entry) = some new ∧ new.bare = entry.bare ∧
      new.etag = entry.hash plain := by
  rcases takes.entry_of_mem distinct member with ⟨old, found, _⟩ | ⟨new, bare, tag, found⟩
  · cases (vacant _).symm.trans found
  · exact ⟨new, found, bare, tag⟩

/-- A store that took the rows of another one when it was empty shows the same rows. -/
theorem same_rows_of_takes (shows : layout.Shows original entries)
    (copies : copyLayout.Shows after others) (listed : items.Perm entries)
    (takes : copyLayout.TakesAll items copy after) (distinct : (items.map copyLayout.place).Nodup)
    (vacant : ∀ place, copyLayout.entry copy place = none) :
    (others.map Entry.bare).Perm (entries.map Entry.bare) := by
  have bareDistinct {rows : List Entry} (apart : (rows.map copyLayout.place).Nodup) :
      (rows.map Entry.bare).Nodup := by
    refine List.Nodup.of_map copyLayout.place ?_
    rw [List.map_map]
    simpa [Function.comp_def] using apart
  rw [List.perm_ext_iff_of_nodup (bareDistinct copies.distinct)
    (bareDistinct ((listed.map copyLayout.place).nodup_iff.mp distinct))]
  intro content
  simp only [List.mem_map]
  constructor
  · rintro ⟨row, member, rfl⟩
    obtain ⟨stored, rfl, found⟩ := (copies.listed row).mp member
    -- Something lies at this place, so that one of the entries was stored there.
    have taken : copyLayout.place stored.shown ∈ items.map copyLayout.place := by
      by_contra absent
      rw [takes.entry_of_notMem absent, vacant] at found
      cases found
    obtain ⟨entry, chosen, here⟩ := List.mem_map.mp taken
    obtain ⟨new, there, bare, _⟩ := copied_of_takes takes distinct vacant chosen
    rw [here, found] at there
    cases there
    exact ⟨entry, listed.mem_iff.mp chosen, (shows.entry_bare (listed.mem_iff.mp chosen) bare).symm⟩
  · rintro ⟨entry, member, rfl⟩
    obtain ⟨new, found, bare, _⟩ := copied_of_takes takes distinct vacant (listed.mem_iff.mpr member)
    refine ⟨new.shown, (copies.listed _).mpr ⟨new, rfl, ?_⟩, shows.entry_bare member bare⟩
    rw [copyLayout.place_shown, Layout.place_eq_of_bare bare, found]

theorem distinct_of_same_rows (shows : layout.Shows original entries) (copies : copyLayout.Shows after others)
    (same : (others.map Entry.bare).Perm (entries.map Entry.bare)) : (entries.map copyLayout.place).Nodup := by
  have found (entry : Entry) (member : entry ∈ entries) :
      ∃ stored, copyLayout.entry after (copyLayout.place entry) = some stored ∧
        stored.shown.bare = entry.bare := by
    obtain ⟨row, listed, bare⟩ := List.mem_map.mp (same.mem_iff.mpr (List.mem_map_of_mem member))
    obtain ⟨stored, rfl, there⟩ := (copies.listed row).mp listed
    rw [Layout.place_eq_of_bare bare] at there
    exact ⟨stored, there, bare⟩
  refine (List.nodup_map_iff_inj_on (shows.distinct.of_map _)).mpr ?_
  intro left leftMember right rightMember coincide
  obtain ⟨stored, there, bare⟩ := found left leftMember
  obtain ⟨again, thereToo, bareToo⟩ := found right rightMember
  rw [coincide, thereToo] at there
  cases there
  exact List.inj_on_of_nodup_map shows.distinct leftMember rightMember
    (Layout.place_eq_of_bare (bare.symm.trans bareToo))

end Copies

theorem forall₂_sets {received : List (Received μ)}
    (requests : received.map (·.request) = entries.map fun entry => entry.message.setRequest)
    (cached : ∀ request ∈ received, request.model = model) : List.Forall₂ (Sets model) received entries := by
  induction received generalizing entries with
  | nil =>
      rw [List.map_nil, eq_comm, List.map_eq_nil_iff] at requests
      subst requests
      exact .nil
  | cons first rest ih =>
      obtain ⟨entry, others, rfl, same, later⟩ := List.map_eq_cons_iff.mp requests.symm
      exact .cons ⟨cached first List.mem_cons_self, same.symm⟩
        (ih later.symm fun request member => cached request (List.mem_cons_of_mem _ member))

/-- The rows of a reachable directory, their order, the errors reported, and the store afterwards. -/
structure Transfer (library : ListLibrary μ) (model : μ) (pageSize : Int32) (source target : Engine ω)
    (original : source.State) (copy : target.State) (received : List (Received μ))
    (entries items : List Entry) (errors : List ImportStatus) (after : target.State) (rows : List Entry) :
    Prop where
  exports : exportResult (μ := μ) source.backend allData {} original =
    (.ok (), { sent := entries.map Entry.message })
  listed : Lists library model pageSize source.backend original entries
  shows : (source.layout library.toLibrary).Shows original entries
  ordered : items.Perm entries
  requests : received.map (·.request) = items.map fun entry => entry.message.setRequest
  importable : ∀ entry ∈ items, entry.importable library.toLibrary model = true
  imports : ∃ counted,
    update target.backend (importStream library.toLibrary received (.eof (.ok ⟨⟩))) copy =
      (.ok (counted, errors), after)
  sound : (target.layout library.toLibrary).sound after
  takes : errors = [] → (target.layout library.toLibrary).TakesAll items copy after
  fine : (∀ entry ∈ items, (target.layout library.toLibrary).Fits entry) → errors = []
  listedCopy : Lists library model pageSize target.backend after rows
  copies : (target.layout library.toLibrary).Shows after rows

variable (hashed : ∀ entry : Entry, entry.hash library.toLibrary ≠ []) {copy : target.State}
  (vacant : Vacant library target copy) {received : List (Received μ)} {original : source.State}

include hashed vacant

theorem exists_transfer (sourceLawful : source.Lawful) (targetLawful : target.Lawful)
    (lists : library.ListsAll model pageSize) (sound : (source.layout library.toLibrary).sound original)
    (importable : ∀ entry ∈ (exported source original).filterMap ExportMessage.entry?,
      entry.importable library.toLibrary model = true) (permuted : order.Perm (exported source original))
    (requests : received.map (·.request) = order.map (·.setRequest))
    (cached : ∀ request ∈ received, request.model = model) :
    ∃ entries items errors after rows, Transfer library model pageSize source target original copy
      received entries items errors after rows := by
  obtain ⟨entries, listed, exports, shows⟩ := exists_listing sourceLawful lists sound
  have sent : exported source original = entries.map Entry.message := by
    rw [exported, exports]
  rw [sent] at permuted importable
  rw [entries_of_messages] at importable
  obtain ⟨items, ordered, rfl⟩ := exists_entries_of_perm permuted
  rw [List.map_map] at requests
  have sets := forall₂_sets requests cached
  have valid (entry : Entry) (member : entry ∈ items) := importable entry (ordered.mem_iff.mp member)
  obtain ⟨counted, errors, after, ran, kept, takes, fine⟩ :=
    run_importRequests (target.layout library.toLibrary) hashed sets valid vacant.sound {} []
  obtain ⟨rows, listedCopy, _, copies⟩ := exists_listing targetLawful lists kept
  exact ⟨entries, items, errors, after, rows, exports, listed, shows, ordered, requests, valid,
    ⟨counted, update_importStream ran⟩, kept, takes, fine, listedCopy, copies⟩

variable {entries items rows : List Entry} {errors : List ImportStatus} {after : target.State}
  (transfer : Transfer library model pageSize source target original copy received entries items errors
    after rows)

include transfer

omit hashed in
theorem Transfer.keysApart
    (reproduces : Reproduces library model pageSize source target original copy received) :
    KeysApart library target (exported source original) := by
  obtain ⟨_, counters, final, imported, ⟨shown, shownCopy, listed, listedCopy, same⟩, _⟩ := reproduces
  obtain ⟨counted, imports⟩ := transfer.imports
  cases imports.symm.trans imported
  cases listed.unique transfer.listed
  cases listedCopy.unique transfer.listedCopy
  have distinct := distinct_of_same_rows transfer.shows transfer.copies same
  unfold KeysApart exported
  rw [transfer.exports, entries_of_messages]
  refine ⟨distinct, fun entry member => ?_⟩
  exact (transfer.takes rfl).fits_of_mem ((transfer.ordered.map _).nodup_iff.mpr distinct)
    (transfer.ordered.mem_iff.mpr member) (vacant.vacant _)

theorem Transfer.reproduces (apart : KeysApart library target (exported source original)) :
    Reproduces library model pageSize source target original copy received := by
  unfold KeysApart exported at apart
  rw [transfer.exports, entries_of_messages] at apart
  obtain ⟨distinct, fits⟩ := apart
  have unreported := transfer.fine fun entry member => fits entry (transfer.ordered.mem_iff.mp member)
  have takes := transfer.takes unreported
  have distinctItems := (transfer.ordered.map (target.layout library.toLibrary).place).nodup_iff.mpr distinct
  obtain ⟨counted, imports⟩ := transfer.imports
  rw [unreported] at imports
  refine ⟨by rw [transfer.exports], counted, after, imports,
    ⟨entries, rows, transfer.listed, transfer.listedCopy, ?_⟩, ?_⟩
  · exact same_rows_of_takes transfer.shows transfer.copies transfer.ordered takes distinctItems
      vacant.vacant
  · intro again sameRequests cachedAgain
    have setsAgain := forall₂_sets (sameRequests.trans transfer.requests) cachedAgain
    have stored (entry : Entry) (member : entry ∈ items) :
        ∃ old, (target.layout library.toLibrary).entry after
          ((target.layout library.toLibrary).place entry) = some old ∧
          old.etag = entry.hash library.toLibrary := by
      obtain ⟨new, found, _, tag⟩ := copied_of_takes takes distinctItems vacant.vacant member
      exact ⟨new, found, tag⟩
    obtain ⟨countedAgain, ran⟩ := run_importRequests_again (target.layout library.toLibrary) hashed
      setsAgain transfer.importable transfer.sound stored {} []
    rw [update_importStream ran]

omit hashed vacant transfer

/-- The export of a reachable directory, imported in any order into an empty one, reproduces
it exactly if the keys of its rows stay apart there. -/
theorem export_import_reproduces_iff (sourceLawful : source.Lawful) (targetLawful : target.Lawful)
    (hashed : ∀ entry : Entry, entry.hash library.toLibrary ≠ [])
    (lists : library.ListsAll model pageSize) (operations : List (Operation μ)) {copy : target.State}
    (vacant : Vacant library target copy)
    (importable : ∀ entry ∈ (exported source (source.reached library.toLibrary operations)).filterMap
      ExportMessage.entry?, entry.importable library.toLibrary model = true)
    {order : List ExportMessage}
    (permuted : order.Perm (exported source (source.reached library.toLibrary operations)))
    {received : List (Received μ)} (requests : received.map (·.request) = order.map (·.setRequest))
    (cached : ∀ request ∈ received, request.model = model) :
    Reproduces library model pageSize source target (source.reached library.toLibrary operations) copy
        received ↔
      KeysApart library target (exported source (source.reached library.toLibrary operations)) := by
  obtain ⟨_, _, _, _, _, transfer⟩ := exists_transfer hashed vacant sourceLawful targetLawful lists
    (source.sound_reached operations) importable permuted requests cached
  exact ⟨transfer.keysApart vacant, transfer.reproduces hashed vacant⟩

end Reproduction

section Copying

variable {ω : Type}

theorem lawful_plain (emptyModel : ω) : (Postgres.Server.plain emptyModel).Lawful where
  transitive := inferInstanceAs (Std.TransCmp (compare : GoString → GoString → Ordering))
  exact := inferInstanceAs (Std.LawfulEqCmp (compare : GoString → GoString → Ordering))
  token values some_values := by
    cases values with
    | nil => exact absurd rfl some_values
    | cons first rest => simp [Postgres.Server.plain, Postgres.joinTexts]

theorem simpleLists_all (model : Simple.Model) (pageSize : Int32) : simpleLists.ListsAll model pageSize where
  objects _ := rfl
  relations := ⟨fun _ => rfl, fun _ => rfl, rfl⟩
  incomplete := rfl

def receive (sent : List ExportMessage) : List (Received Simple.Model) :=
  sent.map fun message => ⟨Simple.viewersModel, ⟨5, 0⟩, message.setRequest⟩

theorem requests_receive : (receive sent).map (·.request) = sent.map (·.setRequest) := List.map_map

theorem cached_receive : ∀ request ∈ receive sent, request.model = Simple.viewersModel := by
  simp [receive]

def sharedDocument : List (Operation Simple.Model) :=
  [.setObject Simple.viewersModel [] ⟨1, 0⟩ { type := "doc".toList, id := "d1".toList },
    .setRelation Simple.viewersModel [] ⟨2, 0⟩ (Simple.viewer "d1" "u1")]

def boltEngine : Engine (Blob Simple.Model) := .bolt

def plainEngine : Engine (Blob Simple.Model) := .postgres plainServer

theorem vacant_empty (engine : Engine (Blob Simple.Model)) : Vacant simpleLists engine (engine.empty) :=
  ⟨engine.sound_empty, engine.entry_empty⟩

theorem shared_document_copied :
    Reproduces simpleLists Simple.viewersModel 100 boltEngine plainEngine
      (boltEngine.reached Simple.library sharedDocument) plainEngine.empty
      (receive (exported boltEngine (boltEngine.reached Simple.library sharedDocument))) := by
  have lawful : boltEngine.Lawful := trivial
  have lawfulToo : plainEngine.Lawful := lawful_plain _
  refine (export_import_reproduces_iff lawful lawfulToo simple_hashed (simpleLists_all _ _)
    sharedDocument (vacant_empty plainEngine) ?_ (.refl _) (requests_receive _)
    (cached_receive _)).mpr ⟨?_, ?_⟩
  · exact List.all_eq_true.mp (by decide +kernel)
  · decide +kernel
  · intro entry _
    cases entry <;> trivial

def collidingViewers : List (Operation Simple.Model) :=
  [.setRelation Simple.viewersModel [] ⟨1, 0⟩ (Simple.viewer "a" "b|viewer|user:c"),
    .setRelation Simple.viewersModel [] ⟨2, 0⟩ (Simple.viewer "a|viewer|user:b" "c")]

/-- The relations that Postgres holds apart arrive as one in BoltDB. -/
theorem colliding_viewers_not_copied :
    (∀ entry ∈ (exported plainEngine (plainEngine.reached Simple.library collidingViewers)).filterMap
        ExportMessage.entry?, entry.importable Simple.library Simple.viewersModel = true) ∧
      (exported plainEngine (plainEngine.reached Simple.library collidingViewers)).length = 2 ∧
      ¬ Reproduces simpleLists Simple.viewersModel 100 plainEngine boltEngine
        (plainEngine.reached Simple.library collidingViewers) boltEngine.empty
        (receive (exported plainEngine (plainEngine.reached Simple.library collidingViewers))) := by
  have importable : ∀ entry ∈ (exported plainEngine
      (plainEngine.reached Simple.library collidingViewers)).filterMap ExportMessage.entry?,
      entry.importable Simple.library Simple.viewersModel = true :=
    List.all_eq_true.mp (by decide +kernel)
  refine ⟨importable, by decide +kernel, fun reproduces => ?_⟩
  have lawful : boltEngine.Lawful := trivial
  have lawfulToo : plainEngine.Lawful := lawful_plain _
  obtain ⟨_, _, _, _, _, transfer⟩ := exists_transfer simple_hashed (vacant_empty boltEngine) lawfulToo
    lawful (simpleLists_all Simple.viewersModel 100)
    (plainEngine.sound_reached collidingViewers) importable (.refl _) (requests_receive _)
    (cached_receive _)
  have apart := (transfer.keysApart (vacant_empty boltEngine) reproduces).1
  revert apart
  decide +kernel

end Copying

end Eamerald.Directory
