import Eamerald.Concurrency.ProcessProperties

/-! Whether the cache holds the stored model. A manifest call commits first and
caches its model later, and a delete call never touches the cache, so coherence
depends on who commits in between. -/

set_option autoImplicit false

namespace Eamerald.Concurrency

open Foundation Store Directory

section Coherence

variable {ω μ : Type} [Wire ω μ] (library : Library μ)

/-- The store holds this model, under the etag of its manifest. -/
structure Stores (db : Bolt.BoltDB ω) (model : μ) : Prop where
  loads : startupModel library Bolt.backend db = .ok model
  tagged : view Bolt.backend (localEtag (μ := μ)) db = .ok (library.etag model)

/-- No manifest is committed while another call has a model to cache, and none is deleted. -/
def Undisturbed (process : Process ω μ) : Event → Prop
  | .commitManifest call => ∀ other, other ≠ call → (process.calls other).committed = none
  | .deleteManifest _ ifMatch now =>
      (update Bolt.backend (deleteTx library ifMatch now) process.store).2.bucket .manifest =
        process.store.bucket .manifest
  | _ => True

/-- The cache holds the stored model, or will when the call that committed it caches it. -/
structure Coherent (process : Process ω μ) : Prop where
  sees : SeesManifest process
  cached : (∃ call, (process.calls call).committed ≠ none) ∨
    Stores library process.store process.cache
  committed : ∀ call model, (process.calls call).committed = some model →
    Stores library process.store model

variable {library}

theorem Stores.congr {db other : Bolt.BoltDB ω} {model : μ} (stores : Stores library db model)
    (same : other.bucket .manifest = db.bucket .manifest) : Stores library other model :=
  ⟨(startupModel_congr same).trans stores.loads, (localEtag_congr same).trans stores.tagged⟩

theorem Coherent.of_same {process next : Process ω μ} (coherent : Coherent library process)
    (sees : SeesManifest next) (manifest : next.store.bucket .manifest = process.store.bucket .manifest)
    (cache : next.cache = process.cache)
    (committed : ∀ other, (next.calls other).committed = (process.calls other).committed) :
    Coherent library next := by
  refine ⟨sees, ?_, ?_⟩
  · rcases coherent.cached with ⟨call, pending⟩ | stores
    · left
      exact ⟨call, by rw [committed]; exact pending⟩
    · right
      rw [cache]
      exact stores.congr manifest
  · intro call model found
    rw [committed] at found
    exact (coherent.committed call model found).congr manifest

theorem stores_of_commit (tags : ∀ model metadata,
      library.etag (library.withMetadata model metadata) = metadata.etag)
    {cache : μ} {manifest : Prepared μ} {store after : Bolt.BoltDB ω}
    (committed : update Bolt.backend (manifestTx library cache manifest) store = (.ok (), after)) :
    Stores library after (publishedModel library manifest) := by
  obtain ⟨_, rfl⟩ := setManifestTx_ok committed
  refine ⟨startupModel_withManifest _ _ _ _, ?_⟩
  rw [localEtag_withManifest, publishedModel, tags]

theorem Coherent.step (tags : ∀ model metadata,
      library.etag (library.withMetadata model metadata) = metadata.etag)
    {process next : Process ω μ} {event : Event} (coherent : Coherent library process)
    (undisturbed : Undisturbed library process event) (step : Step library process event next) :
    Coherent library next := by
  have sees := step.seesManifest coherent.sees
  rcases step.move coherent.sees with quiet |
    ⟨call, ifMatch, manifest, after, rfl, prepared, committed, rfl⟩ |
    ⟨call, model, rfl, publishing, rfl⟩ | ⟨call, ifMatch, now, after, rfl, idle, deleted, rfl⟩
  · exact coherent.of_same sees quiet.manifest quiet.cache quiet.committed
  · have stores := stores_of_commit tags committed
    refine ⟨sees, .inl ⟨call, ?_⟩, ?_⟩
    · rw [calls_advance, if_pos rfl]
      exact Option.some_ne_none _
    · intro other model found
      by_cases same : other = call
      · rw [calls_advance, if_pos same] at found
        cases found
        exact stores
      · rw [calls_advance_of_ne same] at found
        cases (undisturbed other same).symm.trans found
  · have stores : Stores library process.store model :=
      coherent.committed call model (by rw [publishing]; rfl)
    refine ⟨sees, .inr stores, ?_⟩
    intro other published found
    by_cases same : other = call
    · rw [Process.finish, calls_advance, if_pos same] at found
      cases found
    · rw [Process.finish, calls_advance_of_ne same] at found
      exact coherent.committed other published found
  · have manifest : after.bucket .manifest = process.store.bucket .manifest := by
      rw [Undisturbed, deleted] at undisturbed
      exact undisturbed
    refine coherent.of_same sees manifest rfl ?_
    intro other
    by_cases same : other = call
    · rw [Process.finish, calls_advance, if_pos same, same, idle]
      rfl
    · rw [Process.finish, calls_advance_of_ne same]

/-- In every run in which no manifest is committed while another call still has to cache
its own and no delete call replaces the manifest: whenever no call is between its
commit and its cache update, the cache holds the stored model with the stored etag,
and a restart on the same store caches the same model. -/
theorem cache_coherent_when_settled (tags : ∀ model metadata,
      library.etag (library.withMetadata model metadata) = metadata.etag)
    {store : Bolt.BoltDB ω} {process final : Process ω μ}
    (started : startup library store = .ok process)
    (tagged : view Bolt.backend (localEtag (μ := μ)) store = .ok (library.etag process.cache))
    {events : List Event}
    (undisturbed : (machine library).Respects (Undisturbed library) process events)
    (ran : (machine library).run process events = some final)
    (settled : ∀ call, (final.calls call).committed = none) :
    startup library final.store = .ok { store := final.store, cache := final.cache } ∧
      view Bolt.backend (localEtag (μ := μ)) final.store = .ok (library.etag final.cache) := by
  have initially : Coherent library process := by
    obtain ⟨model, loaded, same⟩ := except_bind_eq_ok.mp started
    cases same
    exact ⟨seesManifest_of_free rfl, .inr ⟨loaded, tagged⟩, fun _ _ found => by cases found⟩
  have coherent : Coherent library final :=
    Machine.invariant_of_run (fun _ _ _ coherent met stepped =>
      coherent.step tags met ((step_iff library).mp stepped)) initially undisturbed ran
  rcases coherent.cached with ⟨call, pending⟩ | stores
  · exact absurd (settled call) pending
  · refine ⟨?_, stores.tagged⟩
    rw [startup, stores.loads]
    rfl

end Coherence

section Documents

theorem manifestCall_undisturbed : (machine Simple.library).Respects (Undisturbed Simple.library) freshProcess
      (manifestCall 0 [] [100]) := by
  refine Machine.respects_cons rfl trivial (Machine.respects_cons rfl trivial
    (Machine.respects_cons rfl ?_ (Machine.respects_cons rfl trivial trivial)))
  intro other different
  rw [calls_proceed_of_ne different, calls_advance_of_ne different]
  rfl

theorem manifest_cached_when_settled :
    ∃ final, (machine Simple.library).run freshProcess (manifestCall 0 [] [100]) = some final ∧
      startup Simple.library final.store = .ok { store := final.store, cache := final.cache } ∧
      view Bolt.backend (localEtag (μ := Simple.Model)) final.store =
        .ok (Simple.library.etag final.cache) := by
  obtain ⟨final, ran, cached⟩ := Machine.exists_final (machine Simple.library) freshProcess
    (manifestCall 0 [] [100]) (fun final => decide ((final.calls 0).committed = none))
    (by decide +kernel)
  have started : startup Simple.library freshProcess.store = .ok freshProcess := rfl
  refine ⟨final, ran, cache_coherent_when_settled (fun _ _ => rfl) started rfl
    manifestCall_undisturbed ran ?_⟩
  intro call
  by_cases same : call = 0
  · rw [same]
    exact of_decide_eq_true cached
  · rw [calls_of_run ran (by simp [manifestCall, Event.call, same])]
    rfl

def Phase.resting {μ : Type} : Phase μ → Bool
  | .idle => true
  | .finished _ => true
  | _ => false

def crossingCalls : List Event :=
  [.setManifest 0 [], .receiveManifest 0 ⟨[some ⟨[100]⟩], .ok ⟨⟩, .ok ⟨⟩⟩ ⟨1, 0⟩,
    .setManifest 1 [], .receiveManifest 1 ⟨[some ⟨[101]⟩], .ok ⟨⟩, .ok ⟨⟩⟩ ⟨2, 0⟩,
    .commitManifest 0, .commitManifest 1, .publish 1, .publish 0]

theorem stale_after_run {events : List Event} (named : ∀ event ∈ events, event.call < 2)
    (stale : ((machine Simple.library).run freshProcess events).any (fun final =>
      (final.calls 0).resting && (final.calls 1).resting &&
        decide (startupModel Simple.library Bolt.backend final.store ≠ .ok final.cache)) = true) :
    ∃ final, (machine Simple.library).run freshProcess events = some final ∧
      (∀ call, (final.calls call).resting = true) ∧
      startupModel Simple.library Bolt.backend final.store ≠ .ok final.cache := by
  obtain ⟨final, ran, checked⟩ := Machine.exists_final _ _ _ _ stale
  simp only [Bool.and_eq_true, decide_eq_true_eq] at checked
  obtain ⟨⟨first, second⟩, differs⟩ := checked
  refine ⟨final, ran, ?_, differs⟩
  intro call
  match call with
  | 0 => exact first
  | 1 => exact second
  | later + 2 =>
      rw [calls_of_run ran fun event member same => absurd (named event member) (by omega)]
      rfl

/-- With all calls returned, the cache differs from the stored model after a delete call,
and after two set calls whose cache updates crossed. -/
theorem cache_stale_after_delete :
    (∃ final, (machine Simple.library).run freshProcess
        (manifestCall 0 [] [100] ++ [.deleteManifest 1 [] ⟨2, 0⟩]) = some final ∧
      (∀ call, (final.calls call).resting = true) ∧
      startupModel Simple.library Bolt.backend final.store ≠ .ok final.cache) ∧
    ∃ final, (machine Simple.library).run freshProcess crossingCalls = some final ∧
      (∀ call, (final.calls call).resting = true) ∧
      startupModel Simple.library Bolt.backend final.store ≠ .ok final.cache := by
  constructor
  · exact stale_after_run (by decide) (by decide +kernel)
  · exact stale_after_run (by decide) (by decide +kernel)

end Documents

end Eamerald.Concurrency
