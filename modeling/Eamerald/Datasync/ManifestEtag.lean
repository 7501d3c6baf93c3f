import Eamerald.Datasync.Convergence

/-! The etag of a manifest. A set call hashes all data received so far with every body, so
that its etag is that of the manifest only if the whole manifest comes with the last body. A
synchronisation hashes the manifest itself, and comes to rest only where the two agree. -/

set_option autoImplicit false

namespace Eamerald.Datasync

open Foundation Store Directory

section Cutting

def fed : Bytes → List Body → Bytes
  | _, [] => []
  | data, body :: rest => (data ++ body.data) ++ fed (data ++ body.data) rest

def LastOnly (bodies : List Body) : Prop := ∀ body ∈ bodies.dropLast, body.data = []

instance (bodies : List Body) : Decidable (LastOnly bodies) :=
  inferInstanceAs (Decidable (∀ body ∈ bodies.dropLast, body.data = []))

theorem length_le_fed (data : Bytes) (body : Body) (rest : List Body) :
    (data ++ (body :: rest).flatMap Body.data).length ≤ (fed data (body :: rest)).length := by
  induction rest generalizing data body with
  | nil => simp [fed]
  | cons next rest ih =>
      have later := ih (data ++ body.data) next
      rw [List.append_assoc, ← List.flatMap_cons] at later
      have continued : fed data (body :: next :: rest) =
          (data ++ body.data) ++ fed (data ++ body.data) (next :: rest) := rfl
      calc (data ++ (body :: next :: rest).flatMap Body.data).length
        _ ≤ (fed (data ++ body.data) (next :: rest)).length := later
        _ ≤ (fed data (body :: next :: rest)).length := by
          rw [continued, List.length_append]
          exact Nat.le_add_left _ _

theorem fed_eq_iff (bodies : List Body) : fed [] bodies = bodies.flatMap Body.data ↔ LastOnly bodies := by
  induction bodies with
  | nil => simp [fed, LastOnly]
  | cons body rest ih =>
      cases rest with
      | nil => simp [fed, LastOnly]
      | cons next rest =>
          have split : LastOnly (body :: next :: rest) ↔ body.data = [] ∧ LastOnly (next :: rest) := by
            simp only [LastOnly, List.dropLast_cons_cons, List.forall_mem_cons]
          rw [split, ← ih]
          constructor
          · intro same
            have longer := length_le_fed body.data next rest
            have empty : body.data = [] := by
              have lengths := congrArg List.length same
              rw [fed, List.nil_append, List.length_append] at lengths
              simp only [List.flatMap_cons] at lengths longer
              rw [← List.length_eq_zero_iff]
              omega
            refine ⟨empty, ?_⟩
            simpa [fed, empty] using same
          · rintro ⟨empty, same⟩
            have whole : (body :: next :: rest).flatMap Body.data = (next :: rest).flatMap Body.data := by
              rw [List.flatMap_cons, empty, List.nil_append]
            rw [fed, empty, List.nil_append, List.nil_append, same, whole]

variable {μ : Type} {library : Library μ}

theorem receiveBodies_ok {messages : List (Option Body)} {data hashed received digested : Bytes}
    (ran : receiveBodies library messages data hashed = .ok (received, digested)) :
    received = data ++ (messages.filterMap id).flatMap Body.data ∧
      digested = hashed ++ fed data (messages.filterMap id) := by
  induction messages generalizing data hashed with
  | nil =>
      cases ran
      simp [fed]
  | cons message rest ih =>
      cases message with
      | none => exact ih ran
      | some body =>
          obtain ⟨_, _, continued⟩ := except_bind_eq_ok.mp ran
          obtain ⟨whole, hash⟩ := ih continued
          simp only [whole, hash, List.filterMap_cons_some (rfl : id (some body) = some body),
            List.flatMap_cons, fed, List.append_assoc, and_self]

theorem prepareManifest_ok {stream : ManifestStream} {now : Timestamp} {prepared : Prepared μ}
    (prepares : prepareManifest library stream now = .ok prepared) :
    prepared.data = (stream.messages.filterMap id).flatMap Body.data ∧
      prepared.metadata.etag = library.hashManifest (fed [] (stream.messages.filterMap id)) := by
  obtain ⟨⟨data, hashed⟩, received, continued⟩ := except_bind_eq_ok.mp prepares
  obtain ⟨_, _, continued⟩ := except_bind_eq_ok.mp continued
  obtain ⟨_, _, continued⟩ := except_bind_eq_ok.mp continued
  obtain ⟨_, _, continued⟩ := except_bind_eq_ok.mp continued
  obtain ⟨model, _, made⟩ := except_bind_eq_ok.mp continued
  cases made
  obtain ⟨whole, hash⟩ := receiveBodies_ok received
  exact ⟨whole, congrArg library.hashManifest hash⟩

end Cutting

section Stored

variable {ω μ : Type} [Wire ω μ] {library : Library μ}

theorem served_of_tables {server : Postgres.Server ω} {tables : Postgres.Tables ω} {metadata : Metadata}
    {body : Body} {model : ω}
    (found : tables.manifest = some ⟨Wire.metadata.marshal metadata, Wire.body.marshal body, model⟩) :
    view (Postgres.backend server) (serveManifest (μ := μ)) tables = .ok (metadata, body) := by
  have exists_ : (Postgres.backend server).exec (TxOp.manifestExists (μ := μ)) tables = (.ok true, tables) := by
    change (Except.ok tables.manifest.isSome, tables) = _
    rw [found]
    rfl
  have readMetadata : (Postgres.backend server).exec (TxOp.getManifestMetadata (μ := μ)) tables =
      (.ok metadata, tables) := by
    change (Postgres.select Wire.metadata (tables.manifest.map Postgres.ManifestRow.metadata), tables) = _
    rw [found]
    exact congrArg (·, tables) (Wire.metadata.unmarshal_marshal metadata)
  have readBody : (Postgres.backend server).exec (TxOp.getManifestBody (μ := μ)) tables =
      (.ok body, tables) := by
    change (Postgres.select Wire.body (tables.manifest.map Postgres.ManifestRow.body), tables) = _
    rw [found]
    exact congrArg (·, tables) (Wire.body.unmarshal_marshal body)
  have reads : (getManifest (μ := μ)).run (Postgres.backend server) tables =
      (.ok (metadata, body), tables) := by
    simp only [getManifest, manifestExists, Program.bind_eq, Program.run_bind, Program.run_attempt,
      Program.run_lift, exists_, Program.run_pure, Bool.not_true, Bool.false_eq_true, ↓reduceIte,
      readMetadata, readBody]
  simp only [view, serveManifest, Program.bind_eq, Program.run_bind, Program.run_attempt, reads]
  rfl

theorem served_of_setManifestTx (engine : Engine ω) {cached next : μ} {metadata : Metadata} {data : Bytes}
    {state after : engine.State}
    (stored : update engine.backend (setManifestTx library cached next metadata data) state = (.ok (), after)) :
    view engine.backend (serveManifest (μ := μ)) after = .ok (metadata, ⟨data⟩) := by
  cases engine with
  | bolt =>
      obtain ⟨_, rfl⟩ := setManifestTx_ok stored
      exact serveManifest_withManifest _ _ _ _
  | postgres server =>
      obtain ⟨stats, counted, _, checking⟩ := Program.run_bind_ok (Program.commit_ok.mp stored)
      obtain ⟨_, checked, _, writing⟩ := Program.run_bind_ok checking
      obtain ⟨_, written, manifestSet, modelSet⟩ := Program.run_bind_ok writing
      have first := reporting_ok manifestSet
      have second := reporting_ok modelSet
      cases first
      cases second
      exact served_of_tables rfl

end Stored

section Settling

variable {ω μ : Type} [Wire ω μ] {library : Library μ} {remote : Metadata × Body} {now : Timestamp}
  {replica after : Replica ω μ}

theorem etag_of_prepareSync {data : Bytes} {prepared : Prepared μ}
    (prepares : prepareSync library data now = .ok prepared) :
    prepared.metadata.etag = library.hashManifest data := by
  obtain ⟨_, _, loading⟩ := except_bind_eq_ok.mp prepares
  obtain ⟨model, _, made⟩ := except_bind_eq_ok.mp loading
  cases made
  rfl

/-- The etag on the edge after a synchronisation is that of the hub or the hash of its body. -/
theorem localEtag_of_syncManifest (ran : syncManifest library remote now replica = (.ok (), after)) :
    view Bolt.backend (localEtag (μ := μ)) after.edge.db = .ok remote.1.etag ∨
      view Bolt.backend (localEtag (μ := μ)) after.edge.db = .ok (library.hashManifest remote.2.data) := by
  unfold syncManifest at ran
  cases tagged : view Bolt.backend (localEtag (μ := μ)) replica.edge.db with
  | error error =>
      rw [tagged] at ran
      cases ran
  | ok etag =>
      rw [tagged] at ran
      dsimp only at ran
      by_cases same : etag = remote.1.etag
      · rw [if_pos same] at ran
        cases ran
        exact .inl (tagged.trans (congrArg Except.ok same))
      · rw [if_neg same] at ran
        cases prepares : prepareSync library remote.2.data now with
        | error error =>
            rw [prepares] at ran
            cases ran
        | ok prepared =>
            rw [prepares] at ran
            dsimp only at ran
            cases stored : update Bolt.backend (Concurrency.manifestTx library replica.cache prepared)
                replica.edge.db with
            | mk outcome db =>
                rw [stored] at ran
                cases outcome with
                | error error => cases ran
                | ok _ =>
                    cases ran
                    obtain ⟨_, rfl⟩ := setManifestTx_ok stored
                    right
                    rw [localEtag_withManifest, etag_of_prepareSync prepares]

theorem syncManifest_of_equal
    (tagged : view Bolt.backend (localEtag (μ := μ)) replica.edge.db = .ok remote.1.etag) :
    syncManifest library remote now replica = (.ok (), replica) := by
  rw [syncManifest, tagged]
  exact if_pos rfl

end Settling

section Identity

variable {ω μ : Type} [Wire ω μ]

/-- The etag is the hash of the data, so that no synchronisation after a successful one writes. -/
structure EtagIdentifies (library : Library μ) (source : Engine ω) (hub : source.State) (data : Bytes)
    (metadata : Metadata) : Prop where
  served : view source.backend (serveManifest (μ := μ)) hub = .ok (metadata, ⟨data⟩)
  hashed : metadata.etag = library.hashManifest data
  computed : ∀ now prepared, prepareSync library data now = .ok prepared →
    prepared.metadata.etag = metadata.etag
  settles : ∀ (replica after : Replica ω μ) first,
    syncManifest library (metadata, ⟨data⟩) first replica = (.ok (), after) →
      ∀ later, syncManifest library (metadata, ⟨data⟩) later after = (.ok (), after)

variable {library : Library μ} {source : Engine ω} {before hub : source.State} {cached : μ}
  {stream : ManifestStream} {now : Timestamp}

/-- The etag of a manifest that was set identifies it exactly if all data came with the last
body, or the hash does not tell what it was fed from the data. -/
theorem manifest_etag_identifies_iff
    (stored : update source.backend ((Operation.setManifest cached stream now).program library) before =
      (.ok ⟨⟩, hub)) :
    (∃ metadata, EtagIdentifies library source hub ((stream.messages.filterMap id).flatMap Body.data) metadata) ↔
      LastOnly (stream.messages.filterMap id) ∨
        library.hashManifest (fed [] (stream.messages.filterMap id)) =
          library.hashManifest ((stream.messages.filterMap id).flatMap Body.data) := by
  obtain ⟨prepared, prepares, storing⟩ := Program.run_check_ok (Program.commit_ok.mp stored)
  obtain ⟨data, etag⟩ := prepareManifest_ok prepares
  have served := served_of_setManifestTx source (Program.commit_ok.mpr storing)
  rw [data] at served
  have either : LastOnly (stream.messages.filterMap id) ∨
      library.hashManifest (fed [] (stream.messages.filterMap id)) =
        library.hashManifest ((stream.messages.filterMap id).flatMap Body.data) ↔
      prepared.metadata.etag =
        library.hashManifest ((stream.messages.filterMap id).flatMap Body.data) := by
    rw [etag, or_iff_right_iff_imp, ← fed_eq_iff]
    exact congrArg library.hashManifest
  rw [either]
  constructor
  · rintro ⟨metadata, identifies⟩
    cases served.symm.trans identifies.served
    exact identifies.hashed
  · intro hashed
    refine ⟨prepared.metadata, served, hashed, ?_, ?_⟩
    · intro time synced prepares
      rw [etag_of_prepareSync prepares, hashed]
    · intro replica after first ran later
      refine syncManifest_of_equal ?_
      rcases localEtag_of_syncManifest ran with tagged | tagged
      · exact tagged
      · exact tagged.trans (congrArg Except.ok hashed.symm)

def uncutHub : Bolt.BoltDB (Blob Simple.Model) :=
  (update Bolt.backend ((Operation.setManifest {} { messages := [some ⟨[100, 101]⟩] } ⟨1, 0⟩).program
    Simple.library) Bolt.emptyDB).2

def cutHub : Bolt.BoltDB (Blob Simple.Model) :=
  (update Bolt.backend ((Operation.setManifest {} { messages := [some ⟨[100]⟩, some ⟨[101]⟩] } ⟨1, 0⟩).program
    Simple.library) Bolt.emptyDB).2

theorem uncut_manifest_identified :
    ∃ metadata, EtagIdentifies Simple.library boltEngine uncutHub [100, 101] metadata := by
  have stored : update boltEngine.backend ((Operation.setManifest {} { messages := [some ⟨[100, 101]⟩] }
      ⟨1, 0⟩).program Simple.library) Bolt.emptyDB = (.ok ⟨⟩, uncutHub) := Prod.ext (by decide +kernel) rfl
  exact (manifest_etag_identifies_iff stored).mpr (.inl (by decide))

/-- Both hubs serve the same manifest with different etags. An edge that synchronises with the
second one writes the manifest again and again. -/
theorem cut_manifest_rewritten :
    (view Bolt.backend (serveManifest (μ := Simple.Model)) uncutHub =
        .ok (⟨some ⟨1, 0⟩, "#de".toList⟩, ⟨[100, 101]⟩)) ∧
      (view Bolt.backend (serveManifest (μ := Simple.Model)) cutHub =
        .ok (⟨some ⟨1, 0⟩, "#dde".toList⟩, ⟨[100, 101]⟩)) ∧
      (let remote : Metadata × Body := (⟨some ⟨1, 0⟩, "#dde".toList⟩, ⟨[100, 101]⟩)
       let first := syncManifest Simple.library remote ⟨5, 0⟩ newReplica
       let second := syncManifest Simple.library remote ⟨6, 0⟩ first.2
       first.1 = .ok () ∧ second.1 = .ok () ∧
         view Bolt.backend (serveManifest (μ := Simple.Model)) first.2.edge.db =
           .ok (⟨some ⟨5, 0⟩, "#de".toList⟩, ⟨[100, 101]⟩) ∧
         view Bolt.backend (serveManifest (μ := Simple.Model)) second.2.edge.db =
           .ok (⟨some ⟨6, 0⟩, "#de".toList⟩, ⟨[100, 101]⟩)) := by
  decide +kernel

end Identity

end Eamerald.Datasync
