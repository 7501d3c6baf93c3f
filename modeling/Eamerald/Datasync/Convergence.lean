import Eamerald.Command.MigrationProperties
import Eamerald.Datasync.DiffProperties
import Eamerald.Datasync.Replica
import Eamerald.Directory.ManifestProperties

/-! When an edge converges to its hub. It does exactly if it accepts the manifest of the
hub and, under the model of that manifest, the rows that are missing, and if its filter
knows the rows of the hub and the validators let it delete the others. -/

set_option autoImplicit false

namespace Eamerald.Datasync

open Foundation Store Directory
open Command (Holds holds_iff Complete exists_exported)

def entryRow : Entry → Row
  | .object message => .object (some message)
  | .relation message => .relation (some message)

def arrivals {μ : Type} (model : μ) (clock : Nat → Timestamp) : List Entry → List (Applied μ)
  | [] => []
  | entry :: rest =>
      ⟨model, clock 0, entryRow entry⟩ :: arrivals model (fun index => clock (index + 1)) rest

section Landing

variable {μ σ κ ι ν : Type} [DecidableEq κ] [DecidableEq ι] {library : Library μ}
  {backend : Backend μ σ} (layout : Layout library backend κ ι ν) (model : μ)

/-- The row is stored when it comes: the validators accept it, it fits, and what lies at its
place is not taken for it. -/
def Taken (entry : Entry) (before : Option Entry) : Prop :=
  entryValid library model entry = true ∧ layout.Fits entry ∧
    ∀ old, before = some old → ¬ entry.Tagged library old

def Becomes (entry : Entry) (before after : Option Entry) : Prop :=
  (Taken layout model entry before ∧ ∃ new : Entry, new.bare = entry.bare ∧ after = some new) ∨
    ¬ Taken layout model entry before ∧ after = before

variable {layout} {state : σ} (hashed : ∀ entry : Entry, entry.hash library ≠ [])

include hashed

theorem becomes_of_apply (entry : Entry) (now : Timestamp) (sound : layout.sound state) :
    let after := ((apply library ⟨model, now, entryRow entry⟩).run backend state).2
    layout.sound after ∧ (layout.data after).rest = (layout.data state).rest ∧
      Becomes layout model entry (layout.entry state (layout.place entry))
        (layout.entry after (layout.place entry)) ∧
      ∀ place, place ≠ layout.place entry → layout.entry after place = layout.entry state place := by
  let applied : Applied μ := ⟨model, now, entryRow entry⟩
  have row : applied.row.entry = entry := by cases entry <;> rfl
  have same : applied.row.valid library applied.model = entryValid library model entry := by
    cases entry <;> rfl
  dsimp only
  cases valid : entryValid library model entry with
  | false =>
      obtain ⟨error, ran⟩ : ∃ error, (apply library applied).run backend state = (.error error, state) :=
        run_apply_of_refused (same.trans valid) state
      rw [ran]
      refine ⟨sound, rfl, .inr ⟨?_, rfl⟩, fun _ _ => rfl⟩
      rintro ⟨accepted, _⟩
      cases valid.symm.trans accepted
  | true =>
      have stores := run_apply_of_valid (same.trans valid)
      rw [stores, row]
      rcases layout.run_store hashed now entry sound with
        ⟨after, ran, kept, rest, takes⟩ | ⟨large, error, _, ran⟩
      · rw [ran]
        refine ⟨kept, rest, ?_, fun place => takes.entry_of_ne⟩
        rcases takes with ⟨old, found, tagged, rfl⟩ | ⟨fits, new, bare, _, changed⟩
        · exact .inr ⟨fun taken => taken.2.2 old found tagged, rfl⟩
        · by_cases known : ∃ old, layout.entry state (layout.place entry) = some old ∧
              entry.Tagged library old
          · -- it would have been left alone
            obtain ⟨old, found, tagged⟩ := known
            have left := layout.run_store_of_tagged hashed now sound found tagged
            cases ran.symm.trans left
            exact .inr ⟨fun taken => taken.2.2 old found tagged, rfl⟩
          · refine .inl ⟨⟨valid, fits, fun old found tagged => known ⟨old, found, tagged⟩⟩, new, bare, ?_⟩
            rw [changed, Function.update_self]
      · rw [ran]
        exact ⟨sound, rfl, .inr ⟨fun taken => large taken.2.1, rfl⟩, fun _ _ => rfl⟩

omit hashed in
theorem subscriber_arrivals_cons (clock : Nat → Timestamp) (entry : Entry) (rest : List Entry) :
    ((subscriber library (arrivals model clock (entry :: rest))).run backend state).2 =
      ((subscriber library (arrivals model (fun index => clock (index + 1)) rest)).run backend
        ((apply library ⟨model, clock 0, entryRow entry⟩).run backend state).2).2 :=
  congrArg Prod.snd (subscriber_cons _ _ state)

theorem kept_by_arrivals (clock : Nat → Timestamp) (entries : List Entry) (sound : layout.sound state) :
    let after := ((subscriber library (arrivals model clock entries)).run backend state).2
    layout.sound after ∧ (layout.data after).rest = (layout.data state).rest := by
  induction entries generalizing state clock with
  | nil => exact ⟨sound, rfl⟩
  | cons entry rest ih =>
      obtain ⟨kept, same, _⟩ := becomes_of_apply model hashed entry (clock 0) sound
      dsimp only
      rw [subscriber_arrivals_cons]
      obtain ⟨keptLater, sameLater⟩ := ih (fun index => clock (index + 1)) kept
      exact ⟨keptLater, sameLater.trans same⟩

theorem becomes_of_arrivals (clock : Nat → Timestamp) {entries : List Entry}
    (distinct : (entries.map layout.place).Nodup) (sound : layout.sound state) :
    let after := ((subscriber library (arrivals model clock entries)).run backend state).2
    (∀ entry ∈ entries, Becomes layout model entry (layout.entry state (layout.place entry))
        (layout.entry after (layout.place entry))) ∧
      ∀ place, place ∉ entries.map layout.place → layout.entry after place = layout.entry state place := by
  induction entries generalizing state clock with
  | nil => exact ⟨nofun, fun _ _ => rfl⟩
  | cons entry rest ih =>
      rw [List.map_cons, List.nodup_cons] at distinct
      obtain ⟨kept, _, becomes, others⟩ := becomes_of_apply model hashed entry (clock 0) sound
      dsimp only
      rw [subscriber_arrivals_cons]
      obtain ⟨later, untouched⟩ := ih (fun index => clock (index + 1)) distinct.2 kept
      refine ⟨List.forall_mem_cons.mpr ⟨?_, ?_⟩, ?_⟩
      · rw [untouched _ distinct.1]
        exact becomes
      · intro other member
        have apart : layout.place other ≠ layout.place entry := by
          intro coincide
          exact distinct.1 (coincide ▸ List.mem_map_of_mem member)
        have becomesToo := later other member
        rw [others _ apart] at becomesToo
        exact becomesToo
      · intro place outside
        rw [List.map_cons, List.mem_cons, not_or] at outside
        exact (untouched place outside.2).trans (others place outside.1)

end Landing

section Runs

variable {ω μ φ : Type} (filters : FilterLibrary φ)

def reported (file : WatermarkFile) (entries : List Entry) (key : GoString) : Bool :=
  filters.lookup key (filters.insertAll (entries.map entryKey)
    (filters.newFilter (getWatermark file).getFilterSize))

theorem incoming_messages (model : μ) (clock : Nat → Timestamp) (entries : List Entry) :
    incoming model clock (entries.map Entry.message) = (arrivals model clock entries).map .row := by
  induction entries generalizing clock with
  | nil => rfl
  | cons entry rest ih =>
      cases entry with
      | object message => exact congrArg (_ :: ·) (ih _)
      | relation message => exact congrArg (_ :: ·) (ih _)

theorem entries_arrivals (model : μ) (clock : Nat → Timestamp) (entries : List Entry) :
    (arrivals model clock entries).map (·.row.entry) = entries := by
  induction entries generalizing clock with
  | nil => rfl
  | cons entry rest ih =>
      rw [arrivals, List.map_cons, ih]
      cases entry <;> rfl

variable {model : μ} {clock : Nat → Timestamp} {entries : List Entry} {edge : Edge ω}

theorem diffs_directoryRun (ending : Except Err Unit) (sent : List ExportMessage) :
    (directoryRun model clock ending sent).mode.has .diff = true :=
  (by decide : (Mode.manifest.set .diff).has .diff = true)

theorem produced_directoryRun (ending : Except Err Unit) (file : WatermarkFile) :
    ((directoryRun model clock ending (entries.map Entry.message)).produced filters file).1 =
      arrivals model clock entries := by
  have stream : ((directoryRun model clock ending (entries.map Entry.message)).stream file).messages =
      (arrivals model clock entries).map .row := incoming_messages model clock entries
  rw [Run.produced, stream]
  exact produce_rows _ _

variable [Wire ω μ] {library : Library μ} (model)

/-- A synchronisation leaves the manifest, and of the subscribed rows those that survive. -/
theorem syncDirectory_directoryRun (filed : Bolt.Filed edge.db)
    (hashed : ∀ entry : Entry, entry.hash library ≠ []) (clock : Nat → Timestamp) (entries : List Entry) :
    ∃ after, syncDirectory library filters
        (directoryRun model clock (.ok ()) (entries.map Entry.message)) edge = (.ok (), after) ∧
      Bolt.Filed after.db ∧ after.db.bucket .manifest = edge.db.bucket .manifest ∧
      (Bolt.layout library).entry after.db = fun place => ((Bolt.layout library).entry
        ((subscriber library (arrivals model clock entries)).run Bolt.backend edge.db).2 place).filter
          (survives library model (reported filters edge.file entries)) := by
  let run : Run μ := directoryRun model clock (.ok ()) (entries.map Entry.message)
  have diffs : run.mode.has .diff = true := diffs_directoryRun _ _
  have rows : (run.produced filters edge.file).1 = arrivals model clock entries :=
    produced_directoryRun filters _ _
  have filter : (run.produced filters edge.file).2 = some (filters.insertAll (entries.map entryKey)
      (filters.newFilter (getWatermark edge.file).getFilterSize)) := by
    rw [produced_filter diffs, Run.exported, rows, entries_arrivals]
  have subscribed : subscriberStage library run (arrivals model clock entries) edge.db = _ :=
    subscriberStage_clean rfl _ _
  have sound : (Bolt.layout (ω := ω) library).sound edge.db := filed
  obtain ⟨filedStored, restStored⟩ := kept_by_arrivals model hashed clock entries sound
  obtain ⟨swept, performed, filedSwept, rest, swepts⟩ := run_diff (Bolt.layout library) model
    (reported filters edge.file entries) filedStored
  have staged : diffStage library filters run (run.produced filters edge.file).2
      ((subscriber library (arrivals model clock entries)).run Bolt.backend edge.db).2 =
      (.ok ⟨⟩, swept) := by
    rw [filter]
    exact withTx_clean performed
  have ran : syncDirectory library filters run edge =
      (.ok (), { db := swept, file := (setWatermark .written
        (largestClock (appliedRows library Bolt.backend (arrivals model clock entries) edge.db) .zero)
        swept edge.file).2 }) := by
    rw [syncDirectory, rows, subscribed]
    dsimp only
    rw [finishSync, if_pos diffs, staged]
    rfl
  exact ⟨_, ran, filedSwept, rest.trans restStored, swepts⟩

end Runs

section Rows

variable {ω μ : Type} [Wire ω μ] {entry : Entry}

/-- The row of the hub is stored and known to the filter, or its place is left alone, where it
lies already and is not deleted. -/
def Settles (library : Library μ) (model : μ) (known : GoString → Bool) (edge : Bolt.BoltDB ω)
    (entry : Entry) : Prop :=
  let before := (Bolt.layout library).entry edge ((Bolt.layout (ω := ω) library).place entry)
  Taken (Bolt.layout (ω := ω) library) model entry before ∧ known (entryKey entry) = true ∨
    ¬ Taken (Bolt.layout (ω := ω) library) model entry before ∧
      ∃ old, before = some old ∧ old.shown.bare = entry.shown.bare ∧
        survives library model known old = true

/-- The rows of the hub keep apart on the edge and settle there, and what the filter does not report
can be deleted. -/
structure Receptive (library : Library μ) (model : μ) (known : GoString → Bool)
    (edge : Bolt.BoltDB ω) (entries : List Entry) : Prop where
  apart : (entries.map (Bolt.layout (ω := ω) library).place).Nodup
  settles : ∀ entry ∈ entries, Settles library model known edge entry
  stale : ∀ place stored, (Bolt.layout library).entry edge place = some stored →
    place ∉ entries.map (Bolt.layout (ω := ω) library).place →
      known (entryKey stored) = true ∨ entryValid library model stored = true

/-- The edge has no other rows than the hub, apart from those that the filter reports. -/
def OnlyReported (source : Engine ω) (hub : source.State) (known : GoString → Bool)
    (edge : Bolt.BoltDB ω) : Prop :=
  ∀ entry, Holds (.bolt : Engine ω) edge entry → Holds source hub entry ∨ known (entryKey entry) = true

/-- The validators do not look at timestamps and etags. -/
def ContentOnly (library : Library μ) : Prop :=
  ∀ model entry, entryValid library model entry = entryValid library model entry.bare

theorem entryKey_shown (entry : Entry) : entryKey entry.shown = entryKey entry := by
  cases entry with
  | relation message => rfl
  | object message =>
      simp only [Entry.shown, entryKey, objectRowKey, patchObjectRead]
      split <;> rfl

theorem entryKey_of_content {other : Entry} (same : entry.shown.bare = other.shown.bare) :
    entryKey entry = entryKey other := by
  rw [← entryKey_shown entry, ← entryKey_bare, same, entryKey_bare, entryKey_shown]

variable {library : Library μ} {source : Engine ω} {hub : source.State} {entries : List Entry}

theorem holds_of_mem (sound : (source.layout library).sound hub)
    (shows : (source.layout library).Shows hub entries) (member : entry ∈ entries) :
    Holds source hub entry := by
  obtain ⟨stored, rfl, found⟩ := (shows.listed entry).mp member
  exact (holds_iff sound).mpr ⟨stored, found, by rw [shown_shown]⟩

theorem mem_of_holds (sound : (source.layout library).sound hub)
    (shows : (source.layout library).Shows hub entries)
    (holds : Holds source hub entry) : ∃ other ∈ entries, other.shown.bare = entry.shown.bare := by
  obtain ⟨stored, found, same⟩ := (holds_iff sound).mp holds
  have here : (source.layout library).place stored.shown = (source.layout library).place entry := by
    rw [(source.layout library).place_shown]
    exact (source.layout library).place_of_entry sound found
  exact ⟨stored.shown, (shows.listed _).mpr ⟨stored, rfl, here ▸ found⟩, by rw [shown_shown, same]⟩

theorem place_of_content {σ κ ι ν : Type} [DecidableEq κ] [DecidableEq ι] {backend : Backend μ σ}
    (layout : Layout library backend κ ι ν) {other : Entry}
    (same : entry.shown.bare = other.shown.bare) : layout.place entry = layout.place other := by
  rw [← layout.place_shown, Layout.place_eq_of_bare same, layout.place_shown]

theorem holds_bolt_iff (library : Library μ) {db : Bolt.BoltDB ω} (filed : Bolt.Filed db) :
    Holds (.bolt : Engine ω) db entry ↔ ∃ stored, (Bolt.layout library).entry db
      ((Bolt.layout (ω := ω) library).place entry) = some stored ∧
        stored.shown.bare = entry.shown.bare := by
  have sound : ((.bolt : Engine ω).layout library).sound db := filed
  exact holds_iff sound

section Sweep

variable {model : μ} {known : GoString → Bool} {edge subscribed after : Bolt.BoltDB ω}

theorem holds_after_iff (filed : Bolt.Filed after) (swept : (Bolt.layout library).entry after = fun place =>
      ((Bolt.layout library).entry subscribed place).filter (survives library model known)) :
    Holds (.bolt : Engine ω) after entry ↔ ∃ stored, (Bolt.layout library).entry subscribed
        ((Bolt.layout (ω := ω) library).place entry) = some stored ∧
      survives library model known stored = true ∧ stored.shown.bare = entry.shown.bare := by
  rw [holds_bolt_iff library filed, swept]
  simp only [Option.filter_eq_some_iff, and_assoc]

theorem holds_after_iff_settles (content : ContentOnly library) (filed : Bolt.Filed after)
    (swept : (Bolt.layout library).entry after = fun place =>
      ((Bolt.layout library).entry subscribed place).filter (survives library model known))
    (becomes : Becomes (Bolt.layout (ω := ω) library) model entry
      ((Bolt.layout library).entry edge ((Bolt.layout (ω := ω) library).place entry))
      ((Bolt.layout library).entry subscribed ((Bolt.layout (ω := ω) library).place entry))) :
    Holds (.bolt : Engine ω) after entry ↔ Settles library model known edge entry := by
  rw [holds_after_iff filed swept]
  rcases becomes with ⟨taken, new, bare, found⟩ | ⟨untaken, same⟩
  · have valid : entryValid library model new = true := by
      rw [content, bare, ← content]
      exact taken.1
    have key : entryKey new = entryKey entry := by rw [← entryKey_bare, bare, entryKey_bare]
    have shown : new.shown.bare = entry.shown.bare := by rw [bare_shown, bare_shown, bare]
    rw [found]
    constructor
    · rintro ⟨stored, same, survived, _⟩
      cases same
      refine .inl ⟨taken, ?_⟩
      simpa [survives, valid, key] using survived
    · rintro (⟨_, reported⟩ | ⟨untaken, _⟩)
      · refine ⟨new, rfl, ?_, shown⟩
        simp [survives, key, reported]
      · exact absurd taken untaken
  · rw [same]
    constructor
    · rintro ⟨stored, there, survived, shown⟩
      exact .inr ⟨untaken, stored, there, shown, survived⟩
    · rintro (⟨taken, _⟩ | ⟨_, old, there, shown, survived⟩)
      · exact absurd taken untaken
      · exact ⟨old, there, survived, shown⟩

end Sweep

section Convergence

variable {model : μ} {known : GoString → Bool} {edge subscribed after : Bolt.BoltDB ω}
  (soundHub : (source.layout library).sound hub) (shows : (source.layout library).Shows hub entries)
  (content : ContentOnly library) (filed : Bolt.Filed after) (filedEdge : Bolt.Filed edge)
  (becomes : (entries.map (Bolt.layout (ω := ω) library).place).Nodup →
    (∀ entry ∈ entries, Becomes (Bolt.layout (ω := ω) library) model entry
      ((Bolt.layout library).entry edge ((Bolt.layout (ω := ω) library).place entry))
      ((Bolt.layout library).entry subscribed ((Bolt.layout (ω := ω) library).place entry))) ∧
    ∀ place, place ∉ entries.map (Bolt.layout (ω := ω) library).place →
      (Bolt.layout library).entry subscribed place = (Bolt.layout library).entry edge place)
  (swept : (Bolt.layout library).entry after = fun place =>
    ((Bolt.layout library).entry subscribed place).filter (survives library model known))

include soundHub shows filed

theorem apart_of_complete (complete : Complete source (.bolt : Engine ω) hub after) :
    (entries.map (Bolt.layout (ω := ω) library).place).Nodup := by
  refine (List.nodup_map_iff_inj_on (shows.distinct.of_map _)).mpr ?_
  intro left leftMember right rightMember coincide
  obtain ⟨stored, there, same⟩ := (holds_bolt_iff library filed).mp
    (complete left (holds_of_mem soundHub shows leftMember))
  obtain ⟨again, thereToo, sameToo⟩ := (holds_bolt_iff library filed).mp
    (complete right (holds_of_mem soundHub shows rightMember))
  rw [coincide, thereToo] at there
  cases there
  exact List.inj_on_of_nodup_map shows.distinct leftMember rightMember
    (place_of_content _ (same.symm.trans sameToo))

include content filedEdge becomes swept

theorem rows_converge_iff : Complete source (.bolt : Engine ω) hub after ∧ OnlyReported source hub known after ↔
      Receptive library model known edge entries := by
  constructor
  · rintro ⟨complete, only⟩
    have apart := apart_of_complete soundHub shows filed complete
    obtain ⟨lands, untouched⟩ := becomes apart
    refine ⟨apart, ?_, ?_⟩
    · intro entry member
      exact (holds_after_iff_settles content filed swept (lands entry member)).mp
        (complete entry (holds_of_mem soundHub shows member))
    · intro place stored found outside
      by_contra undeletable
      rw [not_or] at undeletable
      have survived : survives library model known stored = true := by
        simp [survives, undeletable.2]
      have sound : (Bolt.layout library).sound edge := filedEdge
      have here : (Bolt.layout library).place stored = place :=
        (Bolt.layout library).place_of_entry sound found
      have there : Holds (.bolt : Engine ω) after stored :=
        (holds_after_iff filed swept).mpr ⟨stored, here ▸ (untouched place outside).trans found, survived, rfl⟩
      rcases only stored there with holds | reported
      · obtain ⟨other, member, same⟩ := mem_of_holds soundHub shows holds
        refine outside ?_
        rw [← here, ← place_of_content _ same]
        exact List.mem_map_of_mem member
      · exact undeletable.1 reported
  · intro receptive
    obtain ⟨lands, untouched⟩ := becomes receptive.apart
    constructor
    · intro entry holds
      obtain ⟨other, member, same⟩ := mem_of_holds soundHub shows holds
      have there := (holds_after_iff_settles content filed swept (lands other member)).mpr
        (receptive.settles other member)
      have sound : ((.bolt : Engine ω).layout library).sound after := filed
      exact there.congr sound same
    · intro entry holds
      obtain ⟨stored, found, survived, same⟩ := (holds_after_iff filed swept).mp holds
      by_cases inside : (Bolt.layout (ω := ω) library).place entry ∈
          entries.map (Bolt.layout (ω := ω) library).place
      · -- at the place of a row of the hub lies this row
        obtain ⟨other, member, coincide⟩ := List.mem_map.mp inside
        have there := (holds_after_iff_settles content filed swept (lands other member)).mpr
          (receptive.settles other member)
        obtain ⟨again, foundToo, _, sameToo⟩ := (holds_after_iff filed swept).mp there
        rw [coincide, found] at foundToo
        cases foundToo
        exact .inl ((holds_of_mem soundHub shows member).congr soundHub (sameToo.symm.trans same))
      · right
        rw [← entryKey_of_content same]
        rcases receptive.stale _ stored ((untouched _ inside).symm.trans found) inside with
          reported | valid
        · exact reported
        · simpa [survives, valid] using survived

end Convergence

end Rows

section Manifest

variable {ω μ : Type} [Wire ω μ]

/-- The edge has the manifest with its etag, or the etags differ, the manifest loads, and its model
drops nothing that is in use. -/
def ManifestAccepted (library : Library μ) (remote : Metadata × Body) (now : Timestamp)
    (replica : Replica ω μ) : Prop :=
  ∃ etag, view Bolt.backend (localEtag (μ := μ)) replica.edge.db = .ok etag ∧
    (etag = remote.1.etag ∧
        (view Bolt.backend (serveManifest (μ := μ)) replica.edge.db).map Prod.snd = .ok remote.2 ∨
      etag ≠ remote.1.etag ∧ ∃ prepared stats, prepareSync library remote.2.data now = .ok prepared ∧
        view Bolt.backend (calculateStats (μ := μ)) replica.edge.db = .ok stats ∧
        library.canUpdate replica.cache prepared.model stats = .ok ())

variable {library : Library μ} {remote : Metadata × Body} {now : Timestamp} {replica after : Replica ω μ}

theorem exists_stats {db : Bolt.BoltDB ω} (library : Library μ) (filed : Bolt.Filed db) :
    ∃ stats, (calculateStats (μ := μ)).run Bolt.backend db = (.ok stats, db) := by
  obtain ⟨objects, scansObjects, _⟩ := (Bolt.layout library).objects.scans filed
  obtain ⟨relations, scansRelations, _⟩ := (Bolt.layout library).relations.scans filed
  exists relations.values.foldl incRelation (objects.values.foldl incObject ∅)
  simp only [calculateStats, countObjects, countRelations, Program.bind_eq, Program.run_bind,
    Program.run_lift, scansObjects, scansRelations, Program.run_pure]

theorem data_of_prepareSync {data : Bytes} {prepared : Prepared μ}
    (prepares : prepareSync library data now = .ok prepared) : prepared.data = data := by
  obtain ⟨_, _, loading⟩ := except_bind_eq_ok.mp prepares
  obtain ⟨model, _, made⟩ := except_bind_eq_ok.mp loading
  cases made
  rfl

section Updates

variable {etag : GoString} (tagged : view Bolt.backend (localEtag (μ := μ)) replica.edge.db = .ok etag)
  (different : etag ≠ remote.1.etag) {prepared : Prepared μ}
  (prepares : prepareSync library remote.2.data now = .ok prepared)

variable {stats : Stats}
  (counted : (calculateStats (μ := μ)).run Bolt.backend replica.edge.db = (.ok stats, replica.edge.db))

include tagged different prepares counted

theorem syncManifest_of_refused {error : Err}
    (refused : library.canUpdate replica.cache prepared.model stats = .error error) :
    syncManifest library remote now replica = (.error error, replica) := by
  rw [syncManifest, tagged]
  dsimp only
  rw [if_neg different, prepares]
  dsimp only
  rw [Concurrency.manifestTx, update_setManifestTx_of_refused counted refused]

theorem syncManifest_of_allowed
    (allowed : library.canUpdate replica.cache prepared.model stats = .ok ()) :
    syncManifest library remote now replica =
      (.ok (), { edge := { replica.edge with
                             db := withManifest replica.edge.db prepared.metadata (.mk prepared.data)
                               (Concurrency.publishedModel library prepared) }
                 cache := Concurrency.publishedModel library prepared }) := by
  rw [syncManifest, tagged]
  dsimp only
  rw [if_neg different, prepares]
  dsimp only
  rw [Concurrency.manifestTx, update_setManifestTx_of_allowed counted allowed]
  rfl

end Updates

theorem syncManifest_of_accepted (filed : Bolt.Filed replica.edge.db)
    (accepted : ManifestAccepted library remote now replica) :
    ∃ after, syncManifest library remote now replica = (.ok (), after) := by
  obtain ⟨etag, tagged, ⟨same, _⟩ | ⟨different, prepared, stats, prepares, viewed, allowed⟩⟩ := accepted
  · exists replica
    rw [syncManifest, tagged]
    exact if_pos same
  · obtain ⟨counts, counted⟩ := exists_stats library filed
    have same : counts = stats := by
      rw [view, counted] at viewed
      cases viewed
      rfl
    rw [← same] at allowed
    exact ⟨_, syncManifest_of_allowed tagged different prepares counted allowed⟩

/-- The rows are left alone. The edge has the manifest afterwards exactly if it accepts it. -/
theorem syncManifest_ok (filed : Bolt.Filed replica.edge.db)
    (ran : syncManifest library remote now replica = (.ok (), after)) :
    Bolt.Filed after.edge.db ∧ after.edge.file = replica.edge.file ∧
      (Bolt.layout library).entry after.edge.db = (Bolt.layout library).entry replica.edge.db ∧
      ((view Bolt.backend (serveManifest (μ := μ)) after.edge.db).map Prod.snd = .ok remote.2 ↔
        ManifestAccepted library remote now replica) := by
  cases tagged : view Bolt.backend (localEtag (μ := μ)) replica.edge.db with
  | error error =>
      rw [syncManifest, tagged] at ran
      cases ran
  | ok etag =>
      by_cases same : etag = remote.1.etag
      · rw [syncManifest, tagged] at ran
        dsimp only at ran
        rw [if_pos same] at ran
        cases ran
        refine ⟨filed, rfl, rfl, fun served => ⟨etag, tagged, .inl ⟨same, served⟩⟩, ?_⟩
        rintro ⟨other, again, ⟨_, served⟩ | ⟨different, _⟩⟩
        · exact served
        · cases tagged.symm.trans again
          exact absurd same different
      · cases prepares : prepareSync library remote.2.data now with
        | error error =>
            rw [syncManifest, tagged] at ran
            dsimp only at ran
            rw [if_neg same, prepares] at ran
            cases ran
        | ok prepared =>
            obtain ⟨stats, counted⟩ := exists_stats library filed
            cases allowed : library.canUpdate replica.cache prepared.model stats with
            | error error =>
                rw [syncManifest_of_refused tagged same prepares counted allowed] at ran
                cases ran
            | ok value =>
                rw [syncManifest_of_allowed tagged same prepares counted allowed] at ran
                cases ran
                have updated : update Bolt.backend (setManifestTx library replica.cache prepared.model
                    prepared.metadata prepared.data) replica.edge.db = (.ok (), _) :=
                  update_setManifestTx_of_allowed counted allowed
                have sound : (Bolt.layout library).sound replica.edge.db := filed
                have kept := (Bolt.layout library).sound_update (setManifestTx library replica.cache
                  prepared.model prepared.metadata prepared.data) sound
                rw [updated] at kept
                have rows : (Bolt.layout library).entry (update Bolt.backend (setManifestTx library
                    replica.cache prepared.model prepared.metadata prepared.data) replica.edge.db).2 =
                    (Bolt.layout library).entry replica.edge.db :=
                  (.bolt : Engine ω).entry_setManifestTx _ _ _ _ _
                rw [updated] at rows
                refine ⟨kept, rfl, rows, fun _ => ⟨etag, tagged, .inr ⟨same, prepared, stats, prepares,
                  ?_, allowed⟩⟩, fun _ => ?_⟩
                · rw [view, counted]
                · rw [serveManifest_withManifest, data_of_prepareSync prepares]
                  rfl

end Manifest

section Sync

variable {ω μ φ : Type} [Wire ω μ]

def exportedRows (source : Engine ω) (hub : source.State) : List Entry :=
  (exported source hub).filterMap ExportMessage.entry?

/-- The edge has the manifest of the hub, all its rows, and no others but those that the filter
reports. -/
structure Converged (source : Engine ω) (hub : source.State) (known : GoString → Bool)
    (edge : Bolt.BoltDB ω) : Prop where
  body : (view Bolt.backend (serveManifest (μ := μ)) edge).map Prod.snd =
    (view source.backend (serveManifest (μ := μ)) hub).map Prod.snd
  complete : Complete source (.bolt : Engine ω) hub edge
  only : OnlyReported source hub known edge

def Converges (library : Library μ) (filters : FilterLibrary φ) (source : Engine ω)
    (hub : source.State) (now : Timestamp) (clock : Nat → Timestamp) (replica : Replica ω μ) : Prop :=
  ∃ after, replica.sync library filters source hub now clock = (.ok (), after) ∧
    Converged source hub (reported filters replica.edge.file (exportedRows source hub)) after.edge.db

variable {library : Library μ} {filters : FilterLibrary φ} {source : Engine ω} {hub : source.State}
  {now : Timestamp} {replica : Replica ω μ}

section Stages

variable {remote : Metadata × Body} (served : view source.backend (serveManifest (μ := μ)) hub = .ok remote)

include served

variable (filters)

theorem sync_of_manifest_error {error : Err}
    (failed : (syncManifest library remote now replica).1 = .error error) (clock : Nat → Timestamp) :
    (replica.sync library filters source hub now clock).1 = .error error := by
  rw [Replica.sync, served]
  dsimp only
  cases ran : syncManifest library remote now replica with
  | mk outcome middle =>
      rw [ran] at failed
      cases failed
      rfl

variable {middle : Replica ω μ} {entries : List Entry}
  (sends : exportResult (μ := μ) source.backend allData {} hub =
    (.ok (), { sent := entries.map Entry.message }))
  (ran : syncManifest library remote now replica = (.ok (), middle))

include sends ran

theorem sync_of_manifest_ok (clock : Nat → Timestamp) : replica.sync library filters source hub now clock =
      ((syncDirectory library filters
          (directoryRun middle.cache clock (.ok ()) (entries.map Entry.message)) middle.edge).1,
        { middle with edge := (syncDirectory library filters
          (directoryRun middle.cache clock (.ok ()) (entries.map Entry.message)) middle.edge).2 }) := by
  rw [Replica.sync, served]
  dsimp only
  rw [ran, sends]

theorem sync_converged_iff (soundHub : (source.layout library).sound hub)
    (shows : (source.layout library).Shows hub entries) (filed : Bolt.Filed replica.edge.db)
    (hashed : ∀ entry : Entry, entry.hash library ≠ []) (content : ContentOnly library)
    (clock : Nat → Timestamp) : ∃ after, replica.sync library filters source hub now clock = (.ok (), after) ∧
      (Converged source hub (reported filters replica.edge.file entries) after.edge.db ↔
        ManifestAccepted library remote now replica ∧
          Receptive library middle.cache (reported filters replica.edge.file entries) replica.edge.db
            entries) := by
  obtain ⟨filedMiddle, file, sameRows, manifest_iff⟩ := syncManifest_ok filed ran
  obtain ⟨after, synced, filedAfter, manifest, swept⟩ :=
    syncDirectory_directoryRun filters middle.cache filedMiddle hashed clock entries
  have becomes (distinct : (entries.map (Bolt.layout (ω := ω) library).place).Nodup) :=
    becomes_of_arrivals middle.cache hashed clock distinct filedMiddle
  dsimp only at becomes
  rw [sameRows] at becomes
  rw [file] at swept
  have rows_iff := rows_converge_iff soundHub shows content filedAfter filed becomes swept
  refine ⟨{ middle with edge := after }, ?_, ?_⟩
  · rw [sync_of_manifest_ok filters served sends ran, synced]
  · rw [← manifest_iff, ← rows_iff, ← serveManifest_congr manifest]
    constructor
    · intro converged
      have body := converged.body
      rw [served] at body
      exact ⟨body, converged.complete, converged.only⟩
    · rintro ⟨body, complete, only⟩
      refine ⟨?_, complete, only⟩
      rw [served]
      exact body

end Stages

variable (lawful : source.Lawful) (soundHub : (source.layout library).sound hub)
  (filed : Bolt.Filed replica.edge.db) (hashed : ∀ entry : Entry, entry.hash library ≠ [])
  (content : ContentOnly library)

include lawful soundHub

theorem exists_exportedRows : (source.layout library).Shows hub (exportedRows source hub) ∧
      exportResult (μ := μ) source.backend allData {} hub =
        (.ok (), { sent := (exportedRows source hub).map Entry.message }) := by
  obtain ⟨entries, shows, exports⟩ := exists_exported lawful soundHub
  have sends : exportResult (μ := μ) source.backend allData {} hub =
      (.ok (), { sent := entries.map Entry.message }) :=
    (exports {}).trans (sendAll_unbroken [] _)
  have rows : exportedRows source hub = entries := by
    rw [exportedRows, exported, sends]
    exact entries_of_messages entries
  rw [rows]
  exact ⟨shows, sends⟩

include filed hashed content

theorem converges_of_receptive {remote : Metadata × Body}
    (served : view source.backend (serveManifest (μ := μ)) hub = .ok remote)
    (accepted : ManifestAccepted library remote now replica)
    (receptive : Receptive library (syncManifest library remote now replica).2.cache
      (reported filters replica.edge.file (exportedRows source hub)) replica.edge.db
      (exportedRows source hub)) (clock : Nat → Timestamp) :
    Converges library filters source hub now clock replica := by
  obtain ⟨shows, sends⟩ := exists_exportedRows lawful soundHub
  obtain ⟨middle, ran⟩ := syncManifest_of_accepted filed accepted
  rw [ran] at receptive
  obtain ⟨after, synced, converged_iff⟩ := sync_converged_iff filters served sends ran soundHub shows filed
    hashed content clock
  exact ⟨after, synced, converged_iff.mpr ⟨accepted, receptive⟩⟩

/-- An edge converges to a hub exactly if the manifest of the hub can be read, the edge accepts
it, and the rows of both are receptive under the model that the edge has cached by then. -/
theorem sync_converges_iff (clock : Nat → Timestamp) :
    Converges library filters source hub now clock replica ↔
      ∃ remote, view source.backend (serveManifest (μ := μ)) hub = .ok remote ∧
        ManifestAccepted library remote now replica ∧
        Receptive library (syncManifest library remote now replica).2.cache
          (reported filters replica.edge.file (exportedRows source hub)) replica.edge.db
          (exportedRows source hub) := by
  constructor
  · rintro ⟨after, synced, converged⟩
    obtain ⟨shows, sends⟩ := exists_exportedRows lawful soundHub
    cases served : view source.backend (serveManifest (μ := μ)) hub with
    | error error =>
        rw [Replica.sync, served] at synced
        cases synced
    | ok remote =>
        cases ran : syncManifest library remote now replica with
        | mk outcome middle =>
            cases outcome with
            | error error =>
                have failed := sync_of_manifest_error filters served (congrArg Prod.fst ran) clock
                rw [synced] at failed
                cases failed
            | ok value =>
                obtain ⟨again, syncedToo, converged_iff⟩ := sync_converged_iff filters served sends ran
                  soundHub shows filed hashed content clock
                cases synced.symm.trans syncedToo
                obtain ⟨accepted, receptive⟩ := converged_iff.mp converged
                refine ⟨remote, rfl, accepted, ?_⟩
                rw [ran]
                exact receptive
  · rintro ⟨remote, served, accepted, receptive⟩
    exact converges_of_receptive lawful soundHub filed hashed content served accepted receptive clock

end Sync

section Scenario

variable {ω μ : Type} [Wire ω μ]

/-- On an edge without rows, the rows of the hub must be valid, fit, and be known to the filter. -/
theorem receptive_of_vacant {library : Library μ} {model : μ} {known : GoString → Bool}
    {edge : Bolt.BoltDB ω} {entries : List Entry}
    (vacant : ∀ place, (Bolt.layout library).entry edge place = none)
    (apart : (entries.map (Bolt.layout (ω := ω) library).place).Nodup)
    (settles : ∀ entry ∈ entries, entryValid library model entry = true ∧
      (Bolt.layout (ω := ω) library).Fits entry ∧ known (entryKey entry) = true) :
    Receptive library model known edge entries := by
  refine ⟨apart, ?_, ?_⟩
  · intro entry member
    obtain ⟨valid, fits, found⟩ := settles entry member
    refine .inl ⟨⟨valid, fits, ?_⟩, found⟩
    intro old there
    rw [vacant] at there
    cases there
  · intro place stored found
    rw [vacant] at found
    cases found

theorem simple_contentOnly : ContentOnly Simple.library := by
  intro model entry
  cases entry with
  | object message =>
      change Except.isOk (do Simple.library.object message; Simple.library.validateObject model message
                             return message) =
        Except.isOk (do Simple.library.object message; Simple.library.validateObject model message
                        return _)
      cases Simple.library.object message <;> cases Simple.library.validateObject model message <;> rfl
  | relation message =>
      change Except.isOk (do Simple.library.relation message
                             Simple.library.validateRelation model message.ident
                             return message) =
        Except.isOk (do Simple.library.relation message
                        Simple.library.validateRelation model message.ident
                        return _)
      cases Simple.library.relation message <;>
        cases Simple.library.validateRelation model message.ident <;> rfl

instance decidableFits (library : Library μ) :
    (entry : Entry) → Decidable ((Bolt.layout (ω := ω) library).Fits entry)
  | .object message => inferInstanceAs (Decidable (byteLength (Bolt.objectPlace message.ident) ≤ Bolt.maxKeySize))
  | .relation message => inferInstanceAs (Decidable (byteLength (Bolt.objKeyOf message.ident) ≤ Bolt.maxKeySize))

def eachSucceeds (library : Library μ) : List (Operation μ) → Bolt.BoltDB ω → Bool
  | [], _ => true
  | operation :: rest, db =>
      let ran := update Bolt.backend (operation.program library) db
      ran.1.isOk && eachSucceeds library rest ran.2

def twoTypes : Simple.Model :=
  { metadata := { updatedAt := some ⟨1, 0⟩, etag := "#de".toList }, objectTypes := [['d'], ['e']] }

def addType : List (Operation Simple.Model) :=
  [.setManifest {} { messages := [some ⟨[100, 101]⟩] } ⟨1, 0⟩,
    .setObject twoTypes [] ⟨2, 0⟩ { type := ['d'], id := ['1'] }]

def retireType : List (Operation Simple.Model) :=
  [.deleteObject twoTypes [] ⟨3, 0⟩ ⟨['d'], ['1'], false⟩,
    .setManifest twoTypes { messages := [some ⟨[101]⟩] } ⟨4, 0⟩]

def firstHub : Bolt.BoltDB (Blob Simple.Model) :=
  runOperations Simple.library Bolt.backend addType Bolt.emptyDB

def secondHub : Bolt.BoltDB (Blob Simple.Model) :=
  runOperations Simple.library Bolt.backend retireType firstHub

def newReplica : Replica (Blob Simple.Model) Simple.Model := { edge := { db := Bolt.emptyDB }, cache := {} }

def syncAt (seconds : Int) (hub : Bolt.BoltDB (Blob Simple.Model))
    (replica : Replica (Blob Simple.Model) Simple.Model) :
    Except Err Unit × Replica (Blob Simple.Model) Simple.Model :=
  replica.sync Simple.library FilterLibrary.exact boltEngine hub ⟨seconds, 0⟩ fun _ => ⟨seconds, 1⟩

theorem sound_firstHub : (boltEngine.layout Simple.library).sound firstHub :=
  boltEngine.sound_reached addType

def firstManifest : Metadata × Body := (⟨some ⟨1, 0⟩, "#de".toList⟩, ⟨[100, 101]⟩)

theorem served_firstHub :
    view boltEngine.backend (serveManifest (μ := Simple.Model)) firstHub = .ok firstManifest := by
  decide +kernel

theorem accepted_firstManifest (now : Timestamp) :
    ManifestAccepted Simple.library firstManifest now newReplica :=
  ⟨[], rfl, .inr ⟨by decide, _, _, rfl, rfl, rfl⟩⟩

theorem receptive_newReplica :
    Receptive Simple.library (syncManifest Simple.library firstManifest ⟨5, 0⟩ newReplica).2.cache
      (reported FilterLibrary.exact none (exportedRows boltEngine firstHub)) newReplica.edge.db
      (exportedRows boltEngine firstHub) := by
  refine receptive_of_vacant (Bolt.entry_emptyDB _) (by decide +kernel) ?_
  decide +kernel

theorem first_hub_reached :
    Converges Simple.library FilterLibrary.exact boltEngine firstHub ⟨5, 0⟩ (fun _ => ⟨5, 1⟩) newReplica := by
  have lawful : boltEngine.Lawful := trivial
  exact (sync_converges_iff lawful sound_firstHub Bolt.filed_emptyDB simple_hashed simple_contentOnly _).mpr
    ⟨firstManifest, served_firstHub, accepted_firstManifest _, receptive_newReplica⟩

/-- An edge has exactly the rows and the manifest of a hub. The hub deletes an object and
retires its type, and the edge, which still has the object, refuses the manifest for good. -/
theorem retired_type_not_synced :
    eachSucceeds Simple.library addType newReplica.edge.db = true ∧
      eachSucceeds Simple.library retireType firstHub = true ∧
      ∃ replica, syncAt 5 firstHub newReplica = (.ok (), replica) ∧
        Converged boltEngine firstHub (reported FilterLibrary.exact none (exportedRows boltEngine firstHub))
          replica.edge.db ∧
        (syncAt 6 secondHub replica).1 = .error (.rejected "model in use".toList none) := by
  refine ⟨by decide +kernel, by decide +kernel, ?_⟩
  have lawful : boltEngine.Lawful := trivial
  obtain ⟨replica, synced, converged⟩ := converges_of_receptive lawful sound_firstHub Bolt.filed_emptyDB
    simple_hashed simple_contentOnly served_firstHub (accepted_firstManifest ⟨5, 0⟩) receptive_newReplica
    fun _ => ⟨5, 1⟩
  refine ⟨replica, synced, converged, ?_⟩
  have left : replica = (syncAt 5 firstHub newReplica).2 := (congrArg Prod.snd synced).symm
  rw [left]
  decide +kernel

end Scenario

end Eamerald.Datasync
