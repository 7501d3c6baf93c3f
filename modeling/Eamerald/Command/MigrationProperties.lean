import Eamerald.Command.MigrateToPostgres

/-! What a successful migration leaves in its destination. -/

set_option autoImplicit false

namespace Eamerald.Command

open Foundation Store Directory

variable {entries : List Entry}

section Lines

variable {L : Type} {json : JsonLines L} {ending : Except Err Unit} {lines : List L}
  {requests : List ImportRequest} {entry : Entry}

def encoded (json : JsonLines L) : Entry → Except Err L
  | .object message => json.encodeObject message
  | .relation message => json.encodeRelation message

theorem exportToFile_error {error : Err} (failed : encoded json entry = .error error)
    (rest : List ExportMessage) : exportToFile json ending (entry.message :: rest) = ([], .error error) := by
  cases entry with
  | object message =>
      have failed : json.encodeObject message = .error error := failed
      simp only [Entry.message, exportToFile, failed]
  | relation message =>
      have failed : json.encodeRelation message = .error error := failed
      simp only [Entry.message, exportToFile, failed]

theorem exportToFile_ok {line : L} (written : encoded json entry = .ok line) (rest : List ExportMessage) :
    exportToFile json ending (entry.message :: rest) =
      (line :: (exportToFile json ending rest).1, (exportToFile json ending rest).2) := by
  cases entry with
  | object message =>
      have written : json.encodeObject message = .ok line := written
      simp only [Entry.message, exportToFile, written]
  | relation message =>
      have written : json.encodeRelation message = .ok line := written
      simp only [Entry.message, exportToFile, written]

theorem exportToFile_cons {rest : List ExportMessage}
    (written : exportToFile json ending (entry.message :: rest) = (lines, .ok ())) :
    ∃ line others, encoded json entry = .ok line ∧ lines = line :: others ∧
      exportToFile json ending rest = (others, .ok ()) := by
  cases encodes : encoded json entry with
  | error error =>
      rw [exportToFile_error encodes] at written
      cases written
  | ok line =>
      rw [exportToFile_ok encodes] at written
      obtain ⟨rfl, ended⟩ := Prod.mk.inj written
      exact ⟨line, _, rfl, rfl, Prod.ext rfl ended⟩

theorem importFromReader_cons {line : L}
    (read : importFromReader json ending (line :: lines) = (requests, .ok ())) :
    ∃ request rest, (objectLine json line).or (relationLine json line) = some request ∧
      requests = request :: rest ∧ importFromReader json ending lines = (rest, .ok ()) := by
  simp only [importFromReader] at read
  split at read
  · cases read
  · split at read
    · cases read
    · next request parsed =>
      cases later : importFromReader json ending lines with
      | mk rest result =>
          rw [later] at read
          cases read
          exact ⟨request, rest, parsed, rfl, rfl⟩

theorem request_of_line (lawful : json.Lawful) {line : L} {request : ImportRequest}
    (written : encoded json entry = .ok line)
    (parsed : (objectLine json line).or (relationLine json line) = some request) :
    request = entry.message.setRequest := by
  cases entry with
  | object message =>
      have blank : relationLine json line = none := by
        unfold relationLine
        cases found : json.unmarshalRelation line with
        | none => rfl
        | some relation => simp [lawful.noRelation written found]
      simp only [blank, Option.or_none, objectLine, lawful.object written] at parsed
      split at parsed
      · cases parsed
        rfl
      · cases parsed
  | relation message =>
      have blank : objectLine json line = none := by
        unfold objectLine
        cases found : json.unmarshalObject line with
        | none => rfl
        | some object => simp [lawful.noObject written found]
      simp only [blank, Option.none_or, relationLine, lawful.relation written] at parsed
      split at parsed
      · cases parsed
        rfl
      · cases parsed

theorem importFromReader_closed (read : importFromReader json ending lines = (requests, .ok ())) :
    ending = .ok () := by
  induction lines generalizing requests with
  | nil => exact (Prod.mk.inj read).2
  | cons line rest ih =>
      obtain ⟨_, _, _, _, later⟩ := importFromReader_cons read
      exact ih later

theorem exportToFile_closed {messages : List ExportMessage}
    (written : (exportToFile json ending messages).2 = .ok ()) : ending = .ok () := by
  induction messages with
  | nil => exact written
  | cons message rest ih =>
      cases message with
      | object object =>
          simp only [exportToFile] at written
          split at written
          · cases written
          · exact ih written
      | relation relation =>
          simp only [exportToFile] at written
          split at written
          · cases written
          · exact ih written
      | stats stats => exact ih written

theorem requests_of_pipe (lawful : json.Lawful)
    (read : importFromReader json (exportToFile json ending (entries.map Entry.message)).2
      (exportToFile json ending (entries.map Entry.message)).1 = (requests, .ok ())) :
    requests = entries.map fun entry => entry.message.setRequest := by
  induction entries generalizing requests with
  | nil => exact (Prod.mk.inj read).1.symm
  | cons entry rest ih =>
      rw [List.map_cons] at read
      cases written : encoded json entry with
      | error error =>
          rw [exportToFile_error written] at read
          cases read
      | ok line =>
          rw [exportToFile_ok written] at read
          obtain ⟨request, others, parsed, rfl, later⟩ := importFromReader_cons read
          rw [ih later, request_of_line lawful written parsed, List.map_cons]

theorem requests_received {μ : Type} (model : μ) (clock : Nat → Timestamp) (requests : List ImportRequest) :
    (received model clock requests).map (·.request) = requests := by
  induction requests with
  | nil => rfl
  | cons request rest ih => rw [received, List.map_cons, ih]

theorem model_received {μ : Type} (model : μ) (clock : Nat → Timestamp) (requests : List ImportRequest) :
    ∀ request ∈ received model clock requests, request.model = model := by
  induction requests with
  | nil => simp [received]
  | cons request rest ih => exact List.forall_mem_cons.mpr ⟨rfl, ih⟩

end Lines

section Importing

variable {μ σ κ ι ν : Type} [DecidableEq κ] [DecidableEq ι] {library : Library μ}
  {backend : Backend μ σ} {layout : Layout library backend κ ι ν} {model : μ} {state : σ}

/-- The row is written when it arrives: the validators accept it, and what lies at its place is
not taken for it. -/
def Written (library : Library μ) (model : μ) (entry : Entry) (before : Option Entry) : Prop :=
  entry.importable library model = true ∧ ∀ old, before = some old → ¬ entry.Tagged library old

def Lands (library : Library μ) (model : μ) (entry : Entry) (before after : Option Entry) : Prop :=
  (Written library model entry before ∧ ∃ new : Entry, new.bare = entry.bare ∧ after = some new) ∨
    ¬ Written library model entry before ∧ after = before

theorem run_importHandler_of_refused {entry : Entry} (refused : entry.importable library model = false)
    (now : Timestamp) :
    ((importHandler library model now entry.message.setRequest).run backend state).2 = state := by
  cases entry with
  | object message =>
      simp only [Entry.message, ExportMessage.setRequest, importHandler, objectSetHandler]
      cases checked : validateImportObject library model (some message) with
      | error error => rfl
      | ok row =>
          rw [Entry.importable, checked] at refused
          cases refused
  | relation message =>
      simp only [Entry.message, ExportMessage.setRequest, importHandler, relationSetHandler]
      cases checked : validateImportRelation library model (some message) with
      | error error => rfl
      | ok row =>
          rw [Entry.importable, checked] at refused
          cases refused

variable (hashed : ∀ entry : Entry, entry.hash library ≠ [])

include hashed

theorem lands_of_request {request : Received μ} {entry : Entry} (sets : Sets model request entry)
    (fits : layout.Fits entry) (sound : layout.sound state) :
    let after := ((handleReceived library request).run backend state).2
    layout.sound after ∧
      Lands library model entry (layout.entry state (layout.place entry))
        (layout.entry after (layout.place entry)) ∧
      ∀ place, place ≠ layout.place entry → layout.entry after place = layout.entry state place := by
  obtain ⟨rfl, requested⟩ := sets
  simp only [handleReceived, requested]
  by_cases written : Written library request.model entry (layout.entry state (layout.place entry))
  · rw [importHandler_eq written.1]
    rcases layout.run_store hashed request.now entry sound with
      ⟨after, ran, kept, _, takes⟩ | ⟨large, _⟩
    · rw [ran]
      refine ⟨kept, ?_, fun place => takes.entry_of_ne⟩
      rcases takes with ⟨old, found, tagged, _⟩ | ⟨_, new, bare, _, changed⟩
      · exact absurd tagged (written.2 old found)
      · refine .inl ⟨written, new, bare, ?_⟩
        rw [changed, Function.update_self]
    · exact absurd fits large
  · have unchanged : ((importHandler library request.model request.now entry.message.setRequest).run
        backend state).2 = state := by
      cases importable : entry.importable library request.model with
      | false => exact run_importHandler_of_refused importable request.now
      | true =>
          have known : ∃ old, layout.entry state (layout.place entry) = some old ∧
              entry.Tagged library old := by
            by_contra fresh
            exact written ⟨importable, fun old found tagged => fresh ⟨old, found, tagged⟩⟩
          obtain ⟨old, found, tagged⟩ := known
          rw [importHandler_eq importable, layout.run_store_of_tagged hashed _ sound found tagged]
    rw [unchanged]
    exact ⟨sound, .inr ⟨written, rfl⟩, fun _ _ => rfl⟩

theorem lands_of_requests {requests : List (Received μ)}
    (sets : List.Forall₂ (Sets model) requests entries) (fits : ∀ entry, layout.Fits entry)
    (distinct : (entries.map layout.place).Nodup) (sound : layout.sound state) :
    let after := (consume backend (handleReceived library) requests state).2
    (∀ place, place ∉ entries.map layout.place → layout.entry after place = layout.entry state place) ∧
      ∀ entry ∈ entries, Lands library model entry (layout.entry state (layout.place entry))
        (layout.entry after (layout.place entry)) := by
  induction sets generalizing state with
  | nil => exact ⟨fun _ _ => rfl, nofun⟩
  | @cons request entry rest entries sets _ ih =>
      rw [List.map_cons, List.nodup_cons] at distinct
      obtain ⟨kept, lands, others⟩ := lands_of_request hashed sets (fits entry) sound
      obtain ⟨untouched, later⟩ := ih distinct.2 kept
      refine ⟨?_, List.forall_mem_cons.mpr ⟨?_, ?_⟩⟩
      · intro place outside
        rw [List.map_cons, List.mem_cons, not_or] at outside
        exact (untouched place outside.2).trans (others place outside.1)
      · have same := untouched _ distinct.1
        rw [← same] at lands
        exact lands
      · intro other member
        have apart : layout.place other ≠ layout.place entry := by
          intro coincide
          exact distinct.1 (coincide ▸ List.mem_map_of_mem member)
        have lands := later other member
        rw [others _ apart] at lands
        exact lands

end Importing

section Migration

variable {ω μ L : Type} [Wire ω μ] {library : Library μ} {json : JsonLines L}
  {source target : Engine ω} {conditions : Conditions}

/-- The directory has the row: with this identifier, and as reads of it show it. -/
def Holds (engine : Engine ω) (state : engine.State) (entry : Entry) : Prop :=
  ∃ stored, view engine.backend (entry.read (μ := μ)) state = .ok stored ∧
    stored.shown.bare = entry.shown.bare

/-- Every row of the source is in the destination, apart from timestamps and etag. -/
def Complete (source target : Engine ω) (origin : source.State) (after : target.State) : Prop :=
  ∀ entry, Holds source origin entry → Holds target after entry

def migratedModel (library : Library μ) (source : Engine ω) (conditions : Conditions)
    (origin : source.State) : Except Err μ := do
  let (_, body) ← view source.backend serveManifest origin
  let prepared ← prepareManifest library (manifestBlocks body.data) conditions.setAt
  return library.withMetadata prepared.model prepared.metadata

/-- The row is in the destination from the beginning, or the importer accepts it and does not
take another row for it. -/
def Arrives (library : Library μ) (target : Engine ω) (model : μ) (destination : target.State)
    (entry : Entry) : Prop :=
  Holds target destination entry ∨ entry.importable library model = true ∧
    ∀ old, view target.backend (entry.read (μ := μ)) destination = .ok old →
      ¬ entry.Tagged library old

structure Migrated (library : Library μ) (json : JsonLines L) (source target : Engine ω)
    (conditions : Conditions) (origin : source.State) (model : μ) (destination copied after : target.State)
    (requests : List ImportRequest) : Prop where
  chosen : migratedModel library source conditions origin = .ok model
  copies : ∃ cached next metadata data, update target.backend
    (setManifestTx library cached next metadata data) destination = (.ok (), copied)
  pipes : importFromReader json
    (exportToFile json
      (exportResult (μ := μ) source.backend allData { breaks := conditions.breaks } origin).1
      (exportResult (μ := μ) source.backend allData { breaks := conditions.breaks } origin).2.sent).2
    (exportToFile json
      (exportResult (μ := μ) source.backend allData { breaks := conditions.breaks } origin).1
      (exportResult (μ := μ) source.backend allData { breaks := conditions.breaks } origin).2.sent).1 =
      (requests, .ok ())
  imports : ∃ value, (target.refusals conditions.refuses conditions.text).transact target.backend
    (importStream library (received model conditions.clock requests) (.eof (.ok ⟨⟩))) copied =
      (.ok value, after)

theorem copyManifest_ok {cached model : μ} {data : Bytes} {destination copied : target.State}
    (ran : copyManifest library target conditions cached data destination = (.ok model, copied)) :
    ∃ prepared, prepareManifest library (manifestBlocks data) conditions.setAt = .ok prepared ∧
      model = library.withMetadata prepared.model prepared.metadata ∧ update target.backend
        (setManifestTx library cached prepared.model prepared.metadata prepared.data) destination =
          (.ok (), copied) := by
  unfold copyManifest at ran
  cases prepares : prepareManifest library (manifestBlocks data) conditions.setAt with
  | error error =>
      rw [prepares] at ran
      cases ran
  | ok prepared =>
      rw [prepares] at ran
      dsimp only at ran
      cases stored : update target.backend
          (setManifestTx library cached prepared.model prepared.metadata prepared.data) destination with
      | mk answer written =>
          rw [stored] at ran
          cases answer with
          | error error => cases ran
          | ok value =>
              cases ran
              exact ⟨prepared, rfl, rfl, stored⟩

theorem importFromFile_ok {model : μ} {requests : List ImportRequest} {sent : Except Err Unit}
    {copied after : target.State}
    (ran : importFromFile library target conditions model requests sent copied = (.ok (), after)) :
    sent = .ok () ∧ ∃ value, (target.refusals conditions.refuses conditions.text).transact target.backend
      (importStream library (received model conditions.clock requests) (.eof (.ok ⟨⟩))) copied =
        (.ok value, after) := by
  unfold importFromFile at ran
  split at ran
  · cases ran
  · cases ran
  · cases imported : (target.refusals conditions.refuses conditions.text).transact target.backend
        (importStream library (received model conditions.clock requests) (.eof (.ok ⟨⟩))) copied with
    | mk answer written =>
        rw [imported] at ran
        cases answer with
        | error error => cases ran
        | ok value =>
            cases ran
            exact ⟨rfl, value, rfl⟩

theorem migrated_of_ok {origin : source.State} {destination after : target.State}
    (ran : migrate library json source target conditions origin destination = (.ok (), after)) :
    ∃ model copied requests, Migrated library json source target conditions origin model destination
      copied after requests := by
  unfold migrate at ran
  split at ran
  · cases ran
  · cases ran
  · next cached _ _ =>
    cases served : view source.backend (serveManifest (μ := μ)) origin with
    | error error =>
        rw [served] at ran
        cases ran
    | ok manifest =>
        rw [served] at ran
        dsimp only at ran
        cases copies : copyManifest library target conditions cached manifest.2.data destination with
        | mk answer copied =>
            rw [copies] at ran
            cases answer with
            | error error => cases ran
            | ok model =>
                obtain ⟨prepared, prepares, rfl, stored⟩ := copyManifest_ok copies
                obtain ⟨sent, imports⟩ := importFromFile_ok ran
                refine ⟨_, copied, _, ?_, ⟨cached, _, _, _, stored⟩, Prod.ext rfl sent, imports⟩
                exact except_bind_eq_ok.mpr ⟨manifest, served, except_bind_eq_ok.mpr ⟨prepared, prepares, rfl⟩⟩

section Places

variable {engine : Engine ω} {state : engine.State} {entry other : Entry}

theorem holds_iff (sound : (engine.layout library).sound state) :
    Holds engine state entry ↔ ∃ stored, (engine.layout library).entry state
      ((engine.layout library).place entry) = some stored ∧ stored.shown.bare = entry.shown.bare := by
  simp only [Holds, (engine.layout library).view_read sound]

theorem Holds.congr (sound : (engine.layout library).sound state) (holds : Holds engine state entry)
    (same : entry.shown.bare = other.shown.bare) : Holds engine state other := by
  obtain ⟨stored, found, shown⟩ := (holds_iff sound).mp holds
  have here : (engine.layout library).place entry = (engine.layout library).place other := by
    rw [← (engine.layout library).place_shown, Layout.place_eq_of_bare same,
      (engine.layout library).place_shown]
  exact (holds_iff sound).mpr ⟨stored, here ▸ found, shown.trans same⟩

theorem holds_iff_arrives {model : μ} {before after : target.State}
    (soundBefore : (target.layout library).sound before) (soundAfter : (target.layout library).sound after)
    (lands : Lands library model entry
      ((target.layout library).entry before ((target.layout library).place entry))
      ((target.layout library).entry after ((target.layout library).place entry))) :
    Holds target after entry ↔ Arrives library target model before entry := by
  have written_iff : Written library model entry
      ((target.layout library).entry before ((target.layout library).place entry)) ↔
      entry.importable library model = true ∧
        ∀ old, view target.backend (entry.read (μ := μ)) before = .ok old →
          ¬ entry.Tagged library old := by
    simp only [Written, (target.layout library).view_read soundBefore]
  rcases lands with ⟨written, new, bare, found⟩ | ⟨unwritten, same⟩
  · refine iff_of_true ((holds_iff soundAfter).mpr ⟨new, found, ?_⟩) (.inr (written_iff.mp written))
    rw [bare_shown, bare_shown, bare]
  · have unchanged : Holds target after entry ↔ Holds target before entry := by
      rw [holds_iff soundAfter, holds_iff soundBefore, same]
    rw [unchanged]
    constructor
    · exact .inl
    · rintro (there | written)
      · exact there
      · exact absurd (written_iff.mpr written) unwritten

end Places

theorem exists_exported (lawful : source.Lawful) {origin : source.State}
    (sound : (source.layout library).sound origin) :
    ∃ entries : List Entry, (source.layout library).Shows origin entries ∧
      ∀ stream : Outgoing, exportResult (μ := μ) source.backend allData stream origin =
        stream.sendAll (entries.map Entry.message) := by
  obtain ⟨objectRows, resumesObjects⟩ := source.resumes_objects lawful sound
  obtain ⟨relationRows, resumesRelations⟩ := source.resumes_relations lawful sound
  exact ⟨_, Layout.shows_of_scans sound resumesObjects.first resumesRelations.first,
    exportResult_all resumesObjects.first resumesRelations.first⟩

theorem places_distinct (server : Postgres.Server ω)
    (distinct : (entries.map (Bolt.layout (ω := ω) library).place).Nodup) :
    (entries.map (Postgres.layout server library).place).Nodup := by
  refine .of_map (Sum.map Bolt.objectPlace Bolt.objKeyOf) ?_
  rw [List.map_map]
  have through : Sum.map Bolt.objectPlace Bolt.objKeyOf ∘ (Postgres.layout server library).place =
      (Bolt.layout (ω := ω) library).place := by
    funext entry
    cases entry <;> rfl
  rw [through]
  exact distinct

section Run

variable {origin : source.State} {destination copied after : target.State} {model : μ}
  {requests : List ImportRequest}

/-- The destination takes every row, keeps the rows apart, and rolls refused imports back. -/
structure Suits (library : Library μ) (source target : Engine ω) : Prop where
  lawful : source.Lawful
  fits : ∀ entry, (target.layout library).Fits entry
  apart : ∀ {entries : List Entry}, (entries.map (source.layout library).place).Nodup →
    (entries.map (target.layout library).place).Nodup
  aborts : target.aborts = true

theorem lands_of_migrated (suits : Suits library source target) (lawful : json.Lawful)
    (hashed : ∀ entry : Entry, entry.hash library ≠ [])
    (sound : (source.layout library).sound origin) (soundToo : (target.layout library).sound destination)
    (migrated : Migrated library json source target conditions origin model destination copied after requests) :
    ∃ entries, (source.layout library).Shows origin entries ∧
      exported source origin = entries.map Entry.message ∧ (target.layout library).sound after ∧
      ∀ entry ∈ entries, Lands library model entry
        ((target.layout library).entry destination ((target.layout library).place entry))
        ((target.layout library).entry after ((target.layout library).place entry)) := by
  obtain ⟨entries, shows, exports⟩ := exists_exported suits.lawful sound
  -- The export did not break off, so that every row was sent through the pipe.
  have pipes := migrated.pipes
  have ended := exportToFile_closed (importFromReader_closed pipes)
  rw [exports] at ended pipes
  rcases Outgoing.sendAll_cases { breaks := conditions.breaks } (entries.map Entry.message) with
    ⟨error, next, broke, _⟩ | ⟨next, all, sent, _⟩
  · rw [broke] at ended
    cases ended
  rw [all] at pipes
  dsimp only at pipes
  rw [sent, List.nil_append] at pipes
  have requested := requests_of_pipe lawful pipes
  have sets : List.Forall₂ (Sets model) (received model conditions.clock requests) entries :=
    forall₂_sets ((requests_received _ _ _).trans requested) (model_received _ _ _)
  -- No statement was refused, or the import would have been rolled back.
  obtain ⟨value, imports⟩ := migrated.imports
  have ran := Program.run_of_transact suits.aborts imports
  obtain ⟨cached, next, metadata, data, copies⟩ := migrated.copies
  have rows : (target.layout library).entry (update target.backend
      (setManifestTx library cached next metadata data) destination).2 = _ :=
    target.entry_setManifestTx cached next metadata data destination
  have soundCopied := (target.layout library).sound_update
    (setManifestTx library cached next metadata data) soundToo
  rw [copies] at rows soundCopied
  have kept := (target.layout library).sound_run (importStream library
    (received model conditions.clock requests) (.eof (.ok ⟨⟩))) soundCopied
  rw [ran] at kept
  rw [run_importStream] at ran
  obtain ⟨_, lands⟩ := lands_of_requests hashed sets suits.fits (suits.apart shows.distinct) soundCopied
  rw [← rows, ← (Prod.mk.inj ran).2]
  refine ⟨entries, shows, ?_, ?_, lands⟩
  · rw [exported, exports, sendAll_unbroken]
    rfl
  · rw [(Prod.mk.inj ran).2]
    exact kept

theorem complete_iff_of_migrated (suits : Suits library source target) (lawful : json.Lawful)
    (hashed : ∀ entry : Entry, entry.hash library ≠ [])
    (sound : (source.layout library).sound origin) (soundToo : (target.layout library).sound destination)
    (migrated : Migrated library json source target conditions origin model destination copied after requests) :
    Complete source target origin after ↔ ∀ entry ∈ (exported source origin).filterMap ExportMessage.entry?,
        Arrives library target model destination entry := by
  obtain ⟨entries, shows, sent, soundAfter, lands⟩ :=
    lands_of_migrated suits lawful hashed sound soundToo migrated
  rw [sent, entries_of_messages]
  have arrives (entry : Entry) (member : entry ∈ entries) :
      Holds target after entry ↔ Arrives library target model destination entry :=
    holds_iff_arrives soundToo soundAfter (lands entry member)
  constructor
  · intro complete entry member
    obtain ⟨stored, rfl, found⟩ := (shows.listed entry).mp member
    apply (arrives _ member).mp
    apply complete
    exact (holds_iff sound).mpr ⟨stored, found, by rw [shown_shown]⟩
  · intro all entry holds
    obtain ⟨stored, found, same⟩ := (holds_iff sound).mp holds
    have here : (source.layout library).place stored.shown = (source.layout library).place entry := by
      rw [(source.layout library).place_shown]
      exact (source.layout library).place_of_entry sound found
    have member : stored.shown ∈ entries := (shows.listed _).mpr ⟨stored, rfl, here ▸ found⟩
    have arrived := (arrives _ member).mpr (all _ member)
    exact arrived.congr soundAfter (by rw [shown_shown, same])

end Run

theorem suits_postgres (server : Postgres.Server ω) : Suits library .bolt (.postgres server) where
  lawful := trivial
  fits entry := by cases entry <;> trivial
  apart := places_distinct server
  aborts := rfl

/-- A migration that returns nil brought every row exactly if each one arrived. -/
theorem migration_complete_iff (lawful : json.Lawful)
    (hashed : ∀ entry : Entry, entry.hash library ≠ []) {server : Postgres.Server ω}
    {origin : Bolt.BoltDB ω} {destination after : Postgres.Tables ω} (filed : Bolt.Filed origin)
    (filedToo : Postgres.Filed destination)
    (ran : migrateToPostgres library json conditions server origin destination = (.ok (), after)) :
    ∃ model, migratedModel library .bolt conditions origin = .ok model ∧
      (Complete .bolt (.postgres server) origin after ↔
        ∀ entry ∈ (exported .bolt origin).filterMap ExportMessage.entry?,
          Arrives library (.postgres server) model destination entry) := by
  obtain ⟨model, copied, requests, migrated⟩ := migrated_of_ok ran
  exact ⟨model, migrated.chosen,
    complete_iff_of_migrated (suits_postgres server) lawful hashed filed filedToo migrated⟩

end Migration

section Examples

def rowLines : JsonLines Entry where
  encodeObject message := .ok (.object message)
  encodeRelation message := .ok (.relation message)
  unmarshalObject
    | .object message => some message
    | .relation _ => none
  unmarshalRelation
    | .object _ => none
    | .relation message => some message
  length _ := 0
  quote _ := []

theorem rowLines_lawful : rowLines.Lawful := by
  constructor
  · rintro object _ ⟨⟩
    rfl
  · rintro relation _ ⟨⟩
    rfl
  · rintro object _ relation ⟨⟩ ⟨⟩
  · rintro relation _ object ⟨⟩ ⟨⟩

def lettersModel : Simple.Model := { objectTypes := ["d".toList] }

def lettersManifest : Operation Simple.Model :=
  .setManifest {} { messages := [some ⟨[100]⟩] } ⟨1, 0⟩

def setLetter : Operation Simple.Model :=
  .setObject lettersModel [] ⟨3, 0⟩ { type := "d".toList, id := "1".toList }

def quietly : Conditions := { setAt := ⟨4, 0⟩, clock := fun _ => ⟨5, 0⟩ }

def migrationOf (operations : List (Operation Simple.Model)) :
    Except Err Unit × Postgres.Tables (Blob Simple.Model) :=
  migrateToPostgres Simple.library rowLines quietly plainServer
    (boltEngine.reached Simple.library operations) Postgres.emptyTables

def acceptsAll (operations : List (Operation Simple.Model)) : Except Err Bool := do
  let model ← migratedModel Simple.library boltEngine quietly
    (boltEngine.reached Simple.library operations)
  return ((exported boltEngine (boltEngine.reached Simple.library operations)).filterMap
    ExportMessage.entry?).all (Entry.importable Simple.library model)

theorem arrives_empty_iff (model : Simple.Model) (entry : Entry) :
    Arrives Simple.library plainEngine model Postgres.emptyTables entry ↔
      entry.importable Simple.library model = true := by
  have absent (old : Entry) : view plainEngine.backend (entry.read (μ := Simple.Model))
      Postgres.emptyTables ≠ .ok old := by
    cases entry <;> exact fun found => (nomatch found)
  constructor
  · rintro (⟨stored, found, _⟩ | ⟨importable, _⟩)
    · exact absurd found (absent stored)
    · exact importable
  · exact fun importable => .inr ⟨importable, fun old found => absurd found (absent old)⟩

theorem arrive_empty_iff {operations : List (Operation Simple.Model)} {model : Simple.Model}
    (chosen : migratedModel Simple.library boltEngine quietly
      (boltEngine.reached Simple.library operations) = .ok model) :
    (∀ entry ∈ (exported boltEngine (boltEngine.reached Simple.library operations)).filterMap
        ExportMessage.entry?, Arrives Simple.library plainEngine model Postgres.emptyTables entry) ↔
      acceptsAll operations = .ok true := by
  have accepts : acceptsAll operations = .ok _ := except_bind_eq_ok.mpr ⟨model, chosen, rfl⟩
  simp only [arrives_empty_iff, accepts, Except.ok.injEq, List.all_eq_true]

theorem letter_migrated :
    (migrationOf [lettersManifest, setLetter]).1 = .ok () ∧
      Complete boltEngine plainEngine (boltEngine.reached Simple.library [lettersManifest, setLetter])
        (migrationOf [lettersManifest, setLetter]).2 := by
  have returns : (migrationOf [lettersManifest, setLetter]).1 = .ok () := by decide +kernel
  have accepted : acceptsAll [lettersManifest, setLetter] = .ok true := by decide +kernel
  have ran : migrationOf [lettersManifest, setLetter] =
      (.ok (), (migrationOf [lettersManifest, setLetter]).2) := Prod.ext returns rfl
  obtain ⟨model, chosen, complete⟩ := migration_complete_iff rowLines_lawful simple_hashed
    (boltEngine.sound_reached [lettersManifest, setLetter]) Postgres.filed_emptyTables ran
  exact ⟨returns, complete.mpr ((arrive_empty_iff chosen).mpr accepted)⟩

/-- After its manifest was deleted, a directory goes on taking objects under the cached model.
Their migration returns nil and leaves them behind. -/
theorem letter_left_behind :
    let operations := [lettersManifest, .deleteManifest [] ⟨2, 0⟩, setLetter]
    (migrationOf operations).1 = .ok () ∧
      (exported boltEngine (boltEngine.reached Simple.library operations)).length = 1 ∧
      (migrationOf operations).2.objects.isEmpty = true ∧
      ¬ Complete boltEngine plainEngine (boltEngine.reached Simple.library operations)
        (migrationOf operations).2 := by
  intro operations
  have returns : (migrationOf operations).1 = .ok () := by decide +kernel
  have refused : acceptsAll operations ≠ .ok true := by decide +kernel
  refine ⟨returns, by decide +kernel, by decide +kernel, fun complete => ?_⟩
  have ran : migrate Simple.library rowLines boltEngine plainEngine quietly
      (boltEngine.reached Simple.library operations) Postgres.emptyTables =
        (.ok (), (migrationOf operations).2) := Prod.ext returns rfl
  obtain ⟨model, copied, requests, migrated⟩ := migrated_of_ok ran
  have arrive := (complete_iff_of_migrated (suits_postgres plainServer) rowLines_lawful simple_hashed
    (boltEngine.sound_reached operations) Postgres.filed_emptyTables migrated).mp complete
  exact refused ((arrive_empty_iff migrated.chosen).mp arrive)

end Examples

end Eamerald.Command
