import Eamerald.Concurrency.ProcessProperties

/-! The If-Match header of a manifest call. It is compared with the cached etag
before the body is received, and not again in the transaction, so it says
something about the manifest that is replaced only if the cached etag was the
stored one and no other manifest was written since. -/

set_option autoImplicit false

namespace Eamerald.Concurrency

open Foundation Store Directory

section Phases

variable {μ : Type}

def Phase.newEtag : Phase μ → Option GoString
  | .prepared _ manifest => some manifest.metadata.etag
  | _ => none

def Phase.outcome : Phase μ → Option (Except Err Unit)
  | .finished outcome => some outcome
  | _ => none

theorem committed_of_header {phase : Phase μ} (waits : phase.header ≠ []) : phase.committed = none := by
  cases phase with
  | publishing model => exact absurd rfl waits
  | _ => rfl

end Phases

section Matching

variable {ω μ : Type} [Wire ω μ] (library : Library μ) {process : Process ω μ} {next : Process ω μ}
  {event : Event}

def storedEtag (db : Bolt.BoltDB ω) : Except Err GoString := view Bolt.backend (localEtag (μ := μ)) db

/-- A header is compared while the cached etag is the stored one. -/
def ComparesStored (process : Process ω μ) : Event → Prop
  | .setManifest _ ifMatch => ifMatch ≠ [] →
      storedEtag process.store = .ok (library.etag process.cache)
  | _ => True

instance (process : Process ω μ) : (event : Event) → Decidable (ComparesStored library process event)
  | .setManifest _ ifMatch => inferInstanceAs (Decidable (ifMatch ≠ [] →
      storedEtag process.store = .ok (library.etag process.cache)))
  | .setObject _ _ _ | .setRelation _ _ _ | .commitData _ _ | .importBegin _ | .importRequest _ _ _
  | .importEnd _ _ | .receiveManifest _ _ _ | .syncManifest _ _ _ _ | .commitManifest _
  | .publish _ | .deleteManifest _ _ _ => .isTrue trivial

/-- Moreover, a step that changes the stored etag is taken while no other call waits to
commit under a header. -/
def Exclusive (process : Process ω μ) (event : Event) : Prop :=
  ComparesStored library process event ∧
  ∀ next, (machine library).step process event = some next →
    storedEtag next.store = storedEtag process.store ∨
      ∀ other, other ≠ event.call → (process.calls other).header = []

/-- Every header that waits for its commit is the stored etag. -/
structure Matching (process : Process ω μ) : Prop where
  sees : SeesManifest process
  header : ∀ call, (process.calls call).header ≠ [] →
    storedEtag process.store = .ok (process.calls call).header

variable {library}

theorem storedEtag_congr {db other : Bolt.BoltDB ω}
    (same : db.bucket .manifest = other.bucket .manifest) : storedEtag db = storedEtag other :=
  localEtag_congr same

theorem Matching.of_ended (matching : Matching process) (sees : SeesManifest next)
    (stepped : (machine library).step process event = some next) (exclusive : Exclusive library process event)
    (own : (next.calls event.call).header = [])
    (others : ∀ other, other ≠ event.call → next.calls other = process.calls other) : Matching next := by
  refine ⟨sees, fun call waits => ?_⟩
  by_cases same : call = event.call
  · rw [same] at waits
    exact absurd own waits
  · rw [others call same] at waits ⊢
    rcases exclusive.2 next stepped with unchanged | alone
    · rw [unchanged]
      exact matching.header call waits
    · exact absurd (alone call same) waits

theorem Matching.step (matching : Matching process) (exclusive : Exclusive library process event)
    (stepped : (machine library).step process event = some next) : Matching next := by
  have step := (step_iff library).mp stepped
  have sees := step.seesManifest matching.sees
  have others : ∀ other, other ≠ event.call → next.calls other = process.calls other :=
    fun _ different => step.calls_of_ne different
  rcases step.move matching.sees with quiet |
    ⟨call, ifMatch, manifest, after, rfl, _, _, rfl⟩ | ⟨call, model, rfl, _, rfl⟩ |
    ⟨call, ifMatch, now, after, rfl, _, _, rfl⟩
  · refine ⟨sees, fun call waits => ?_⟩
    rw [storedEtag_congr quiet.manifest]
    rcases quiet.header call with ended | same | ⟨compared, equal⟩
    · exact absurd ended waits
    · rw [same] at waits ⊢
      exact matching.header call waits
    · have current := exclusive.1
      rw [compared] at current
      rw [equal]
      exact current waits
  · refine matching.of_ended sees stepped exclusive ?_ others
    rw [Event.call, calls_advance, if_pos rfl]
    rfl
  · refine matching.of_ended sees stepped exclusive ?_ others
    rw [Event.call, Process.finish, calls_advance, if_pos rfl]
    rfl
  · refine matching.of_ended sees stepped exclusive ?_ others
    rw [Event.call, Process.finish, calls_advance, if_pos rfl]
    rfl

theorem Matching.of_startup {store : Bolt.BoltDB ω}
    (started : startup library store = .ok process) : Matching process := by
  obtain ⟨model, _, same⟩ := except_bind_eq_ok.mp started
  cases same
  exact ⟨seesManifest_of_free rfl, fun _ waits => absurd rfl waits⟩

theorem exclusive_of_single (call : Nat) {events : List Event} (single : ∀ event ∈ events, event.call = call)
    (clear : ∀ other, other ≠ call → (process.calls other).header = [])
    (compares : (machine library).Respects (ComparesStored library) process events) :
    (machine library).Respects (Exclusive library) process events := by
  induction events generalizing process with
  | nil => exact trivial
  | cons event rest ih =>
      intro next stepped
      obtain ⟨compared, comparesLater⟩ := compares next stepped
      have own := single event List.mem_cons_self
      refine ⟨⟨compared, fun _ _ => .inr fun other different => clear other (own ▸ different)⟩, ?_⟩
      refine ih (fun later member => single later (List.mem_cons_of_mem event member)) ?_ comparesLater
      intro other different
      rw [((step_iff library).mp stepped).calls_of_ne (own.symm ▸ different)]
      exact clear other different

variable (library)

def Avoids (etag : GoString) (process : Process ω μ) : Event → Prop
  | .commitManifest call => (process.calls call).newEtag ≠ some etag
  | .deleteManifest _ _ _ => library.hashManifest [] ≠ etag
  | _ => True

instance (etag : GoString) (process : Process ω μ) :
    (event : Event) → Decidable (Avoids library etag process event)
  | .commitManifest call => inferInstanceAs (Decidable ((process.calls call).newEtag ≠ some etag))
  | .deleteManifest _ _ _ => inferInstanceAs (Decidable (library.hashManifest [] ≠ etag))
  | .setObject _ _ _ | .setRelation _ _ _ | .commitData _ _ | .importBegin _ | .importRequest _ _ _
  | .importEnd _ _ | .setManifest _ _ | .receiveManifest _ _ _ | .syncManifest _ _ _ _
  | .publish _ => .isTrue trivial

def replaces (ifMatch : GoString) (process next : Process ω μ) : Event → Bool
  | .commitManifest call =>
      decide ((process.calls call).header = ifMatch) && (next.calls call).committed.isSome
  | _ => false

def replacements (ifMatch : GoString) (process : Process ω μ) : List Event → Nat
  | [] => 0
  | event :: rest =>
      match (machine library).step process event with
      | none => 0
      | some next => (if replaces ifMatch process next event then 1 else 0) +
          replacements ifMatch next rest

variable {library}

theorem Matching.etag_of_replaces {ifMatch : GoString} (matching : Matching process) (present : ifMatch ≠ [])
    (replaced : replaces ifMatch process next event = true) : storedEtag process.store = .ok ifMatch := by
  cases event with
  | commitManifest call =>
      simp only [replaces, Bool.and_eq_true, decide_eq_true_eq] at replaced
      obtain ⟨rfl, _⟩ := replaced
      exact matching.header call present
  | _ => cases replaced

/-- Without a write of this etag it is not stored afterwards if it was not before, or if
a manifest was replaced. -/
theorem Step.avoids {etag : GoString}
    (present : etag ≠ []) (step : Step library process event next) (sees : SeesManifest process)
    (avoids : Avoids library etag process event)
    (fresh : storedEtag process.store ≠ .ok etag ∨ replaces etag process next event = true) :
    storedEtag next.store ≠ .ok etag := by
  rcases step.move sees with quiet |
    ⟨call, ifMatch, manifest, after, rfl, prepared, committed, rfl⟩ | ⟨call, model, rfl, _, rfl⟩ |
    ⟨call, ifMatch, now, after, rfl, _, deleted, rfl⟩
  · rw [storedEtag_congr quiet.manifest]
    rcases fresh with absent | replaced
    · exact absent
    · cases event with
      | commitManifest call =>
          simp only [replaces, Bool.and_eq_true, decide_eq_true_eq] at replaced
          obtain ⟨rfl, committed⟩ := replaced
          rw [quiet.committed, committed_of_header present] at committed
          cases committed
      | _ => cases replaced
  · obtain ⟨_, rfl⟩ := setManifestTx_ok committed
    intro stored
    have written : storedEtag (withManifest process.store manifest.metadata ⟨manifest.data⟩
        (library.withMetadata manifest.model manifest.metadata)) = .ok manifest.metadata.etag :=
      localEtag_withManifest _ _ _ _
    have same : manifest.metadata.etag = etag := Except.ok.inj (written.symm.trans stored)
    refine avoids ?_
    rw [prepared, ← same]
    rfl
  · rcases fresh with absent | replaced
    · exact absent
    · cases replaced
  · rcases fresh with absent | replaced
    · rcases deleteTx_ok deleted with rfl | ⟨metadata, model, hashed, rfl⟩
      · exact absent
      · intro stored
        have written : storedEtag (withManifest (Bolt.emptyDB : Bolt.BoltDB ω) metadata ⟨[]⟩ model) =
            .ok metadata.etag := localEtag_withManifest _ _ _ _
        exact avoids (hashed.symm.trans (Except.ok.inj (written.symm.trans stored)))
    · cases replaced

theorem Matching.replacements_le {ifMatch : GoString} (present : ifMatch ≠ []) {events : List Event} (matching : Matching process)
    (exclusive : (machine library).Respects (Exclusive library) process events)
    (avoids : (machine library).Respects (Avoids library ifMatch) process events) :
    replacements library ifMatch process events ≤ if storedEtag process.store = .ok ifMatch then 1 else 0 := by
  induction events generalizing process with
  | nil => exact Nat.zero_le _
  | cons event rest ih =>
      unfold replacements
      cases stepped : (machine library).step process event with
      | none => exact Nat.zero_le _
      | some next =>
          obtain ⟨alone, exclusiveLater⟩ := exclusive next stepped
          obtain ⟨avoided, avoidsLater⟩ := avoids next stepped
          have step := (step_iff library).mp stepped
          have later := ih (matching.step alone stepped) exclusiveLater avoidsLater
          dsimp only
          by_cases replaced : replaces ifMatch process next event = true
          · have gone := step.avoids present matching.sees avoided (.inr replaced)
            rw [if_neg gone] at later
            rw [if_pos replaced, if_pos (matching.etag_of_replaces present replaced)]
            omega
          · rw [if_neg replaced, Nat.zero_add]
            refine le_trans later ?_
            by_cases stored : storedEtag process.store = .ok ifMatch
            · rw [if_pos stored]
              split <;> omega
            · rw [if_neg (step.avoids present matching.sees avoided (.inl stored))]
              exact Nat.zero_le _

/-- In every run in which headers are compared with the stored etag and no other manifest
is written between the comparison and the commit of a call: a call that commits
under a header replaces a manifest with that etag, and where no manifest written in
the run has that etag, at most one call does. -/
theorem manifest_replaced_under_header {store : Bolt.BoltDB ω} {process : Process ω μ}
    (started : startup library store = .ok process) {events : List Event}
    (exclusive : (machine library).Respects (Exclusive library) process events) :
    (∀ first rest call before next, events = first ++ .commitManifest call :: rest →
      (machine library).run process first = some before →
      (machine library).step before (.commitManifest call) = some next →
      (next.calls call).committed ≠ none → (before.calls call).header ≠ [] →
      storedEtag before.store = .ok (before.calls call).header) ∧
    ∀ ifMatch, ifMatch ≠ [] →
      (machine library).Respects (Avoids library ifMatch) process events →
      replacements library ifMatch process events ≤ 1 := by
  have initially := Matching.of_startup started
  constructor
  · intro first rest call before next split ran stepped committed waits
    rw [split] at exclusive
    have matching : Matching before := Machine.invariant_of_run (fun _ _ _ matching met stepped =>
      matching.step met stepped) initially exclusive.of_append ran
    exact matching.header call waits
  · intro ifMatch present avoids
    refine le_trans (initially.replacements_le present exclusive avoids) ?_
    split <;> omega

end Matching

section Documents

def documentsModel : Simple.Model :=
  { metadata := ⟨some ⟨1, 0⟩, "#d".toList⟩, objectTypes := ["d".toList] }

def documentsProcess : Process (Blob Simple.Model) Simple.Model :=
  { store := withManifest Bolt.emptyDB documentsModel.metadata ⟨[100]⟩ documentsModel
    cache := documentsModel }

theorem documentsProcess_started : startup Simple.library documentsProcess.store = .ok documentsProcess := by
  rw [startup, documentsProcess, startupModel_withManifest]
  rfl

theorem manifestCall_exclusive : (machine Simple.library).Respects (Exclusive Simple.library) documentsProcess
      (manifestCall 0 "#d".toList [101]) :=
  exclusive_of_single 0 (by decide) (fun _ _ => rfl) (by decide +kernel)

theorem manifest_replaced_once :
    (machine Simple.library).Respects (Exclusive Simple.library) documentsProcess
        (manifestCall 0 "#d".toList [101]) ∧
      replacements Simple.library "#d".toList documentsProcess
        (manifestCall 0 "#d".toList [101]) = 1 ∧
      replacements Simple.library "#d".toList documentsProcess
        (manifestCall 0 "#d".toList [101]) ≤ 1 := by
  refine ⟨manifestCall_exclusive, by decide +kernel, ?_⟩
  exact (manifest_replaced_under_header documentsProcess_started manifestCall_exclusive).2 _
    (by decide) (by decide +kernel)

def lostUpdate : List Event :=
  [.setManifest 1 "#d".toList, .setManifest 2 "#d".toList,
    .receiveManifest 1 ⟨[some ⟨[101]⟩], .ok ⟨⟩, .ok ⟨⟩⟩ ⟨2, 0⟩,
    .receiveManifest 2 ⟨[some ⟨[102]⟩], .ok ⟨⟩, .ok ⟨⟩⟩ ⟨3, 0⟩,
    .commitManifest 1, .publish 1, .commitManifest 2, .publish 2]

/-- Both calls succeed, and the second replaces a manifest with another etag. -/
theorem both_calls_replace_manifest :
    (machine Simple.library).Respects (Avoids Simple.library "#d".toList) documentsProcess
        lostUpdate ∧
      (((machine Simple.library).run documentsProcess (lostUpdate.take 6)).map fun before =>
        (storedEtag before.store, (before.calls 2).header)) =
          some (.ok "#e".toList, "#d".toList) ∧
      (((machine Simple.library).run documentsProcess lostUpdate).map fun final =>
        ((final.calls 1).outcome, (final.calls 2).outcome)) =
          some (some (.ok ()), some (.ok ())) ∧
      replacements Simple.library "#d".toList documentsProcess lostUpdate = 2 := by
  refine ⟨?_, ?_, ?_, ?_⟩ <;> decide +kernel

end Documents

end Eamerald.Concurrency
