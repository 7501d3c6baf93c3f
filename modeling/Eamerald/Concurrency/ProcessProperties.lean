import Eamerald.Concurrency.Process
import Eamerald.Directory.PolicyProperties
import Eamerald.Directory.ManifestProperties

/-! The steps of a process, one rule for each thing an event can do, and what no
step changes. -/

set_option autoImplicit false

namespace Eamerald.Concurrency

open Foundation Store Directory

variable {event : Event} {call : Nat} {α : Type} {outcome : Except Err α}

section Fields

variable {ω μ : Type} {process : Process ω μ} {call : Nat} {phase : Phase μ}

theorem calls_advance (other : Nat) :
    (process.advance call phase).calls other = if other = call then phase else process.calls other :=
  Function.update_apply process.calls call phase other

theorem calls_advance_of_ne {other : Nat} (different : other ≠ call) :
    (process.advance call phase).calls other = process.calls other := by
  rw [calls_advance, if_neg different]

theorem calls_proceed_of_ne {next : α → Phase μ} {other : Nat} (different : other ≠ call) :
    (process.proceed call outcome next).calls other = process.calls other := by
  cases outcome <;> exact calls_advance_of_ne different

end Fields

section Views

variable {ω μ : Type}

/-- An open transaction sees the manifest that is stored. -/
def SeesManifest (process : Process ω μ) : Prop :=
  ∀ owner view, process.writer = some (owner, view) →
    view.bucket .manifest = process.store.bucket .manifest

theorem SeesManifest.proceed {process : Process ω μ} (sees : SeesManifest process)
    (call : Nat) (outcome : Except Err α) (next : α → Phase μ) :
    SeesManifest (process.proceed call outcome next) := by
  cases outcome <;> exact sees

theorem seesManifest_of_free {process : Process ω μ} (free : process.writer = none) : SeesManifest process := by
  intro owner view opened
  rw [free] at opened
  cases opened

end Views

section Moves

variable {ω μ : Type} (library : Library μ) {process : Process ω μ}

def Phase.header : Phase μ → GoString
  | .checked ifMatch => ifMatch
  | .prepared ifMatch _ => ifMatch
  | _ => []

def Phase.committed : Phase μ → Option μ
  | .publishing model => some model
  | _ => none

/-- A step that concerns neither the stored manifest nor the cache. -/
structure Quiet (process : Process ω μ) (event : Event) (next : Process ω μ) : Prop where
  manifest : next.store.bucket .manifest = process.store.bucket .manifest
  cache : next.cache = process.cache
  committed : ∀ other, (next.calls other).committed = (process.calls other).committed
  header : ∀ other, (next.calls other).header = [] ∨
    (next.calls other).header = (process.calls other).header ∨
    (event = .setManifest other (next.calls other).header ∧
      (next.calls other).header = library.etag process.cache)

variable {library}

theorem quiet_advance {changed : Process ω μ} {phase : Phase μ}
    (manifest : changed.store.bucket .manifest = process.store.bucket .manifest)
    (cache : changed.cache = process.cache) (calls : changed.calls = process.calls)
    (before : (process.calls call).committed = none) (after : phase.committed = none)
    (header : phase.header = [] ∨ phase.header = (process.calls call).header ∨
      (event = .setManifest call phase.header ∧ phase.header = library.etag process.cache)) :
    Quiet library process event (changed.advance call phase) := by
  refine ⟨manifest, cache, ?_, ?_⟩
  · intro other
    rw [calls_advance, calls]
    split
    · rename_i same
      rw [after, same, before]
    · rfl
  · intro other
    rw [calls_advance, calls]
    split
    · rename_i same
      rw [same]
      exact header
    · exact .inr (.inl rfl)

theorem quiet_finish {changed : Process ω μ}
    (manifest : changed.store.bucket .manifest = process.store.bucket .manifest)
    (cache : changed.cache = process.cache) (calls : changed.calls = process.calls)
    (before : (process.calls call).committed = none) :
    Quiet library process event (changed.finish call outcome) :=
  quiet_advance manifest cache calls before rfl (.inl rfl)

theorem quiet_proceed {next : α → Phase μ} (before : (process.calls call).committed = none)
    (after : ∀ value, outcome = .ok value → (next value).committed = none ∧
      ((next value).header = [] ∨ (next value).header = (process.calls call).header)) :
    Quiet library process event (process.proceed call outcome next) := by
  cases outcome with
  | error error => exact quiet_advance rfl rfl rfl before rfl (.inl rfl)
  | ok value =>
      obtain ⟨uncommitted, header⟩ := after value rfl
      exact quiet_advance rfl rfl rfl before uncommitted (header.imp_right .inl)

end Moves

variable {ω μ : Type} [Wire ω μ] (library : Library μ)

inductive Step : Process ω μ → Event → Process ω μ → Prop where
  | setObject {process : Process ω μ} {call : Nat} {ifMatch : GoString} {object : Object}
      (idle : process.calls call = .idle) :
      Step process (.setObject call ifMatch object)
        (process.proceed call (validateSetObject library process.cache object)
          fun etag => .setObject process.cache etag ifMatch object)
  | setRelation {process : Process ω μ} {call : Nat} {ifMatch : GoString} {relation : Relation}
      (idle : process.calls call = .idle) :
      Step process (.setRelation call ifMatch relation)
        (process.proceed call (validateSetRelation library process.cache relation)
          fun etag => .setRelation process.cache etag ifMatch relation)
  | commitData {process : Process ω μ} {call : Nat} {now : Timestamp} {body : Tx μ PUnit}
      (free : process.writer = none) (pending : dataTx now (process.calls call) = some body) :
      Step process (.commitData call now)
        ({ process with store := (update Bolt.backend body process.store).2 }.finish call
          (update Bolt.backend body process.store).1)
  | importBegin {process : Process ω μ} {call : Nat} (free : process.writer = none)
      (idle : process.calls call = .idle) :
      Step process (.importBegin call)
        ({ process with writer := some (call, process.store) }.advance call .importing)
  | importRequest {process : Process ω μ} {call : Nat} {now : Timestamp} {request : ImportRequest}
      {view : Bolt.BoltDB ω} (owned : process.writer = some (call, view))
      (running : process.calls call = .importing) :
      Step process (.importRequest call now request)
        { process with writer := some (call,
            ((importHandler library process.cache now request).run Bolt.backend view).2) }
  | importAbort {process : Process ω μ} {call : Nat} {error : Err} {view : Bolt.BoltDB ω}
      (owned : process.writer = some (call, view)) (running : process.calls call = .importing) :
      Step process (.importEnd call (.eof (.error error)))
        ({ process with writer := none }.finish (α := Unit) call (.error error))
  | importCommit {process : Process ω μ} {call : Nat} {ending : StreamEnd} {view : Bolt.BoltDB ω}
      (owned : process.writer = some (call, view)) (running : process.calls call = .importing)
      (sent : ∀ error, ending ≠ .eof (.error error)) :
      Step process (.importEnd call ending)
        ({ process with store := view, writer := none }.finish call (.ok ()))
  | setManifest {process : Process ω μ} {call : Nat} {ifMatch : GoString}
      (idle : process.calls call = .idle) (matched : ifMatchCached library ifMatch process.cache) :
      Step process (.setManifest call ifMatch) (process.advance call (.checked ifMatch))
  | mismatch {process : Process ω μ} {call : Nat} {ifMatch : GoString}
      (idle : process.calls call = .idle)
      (unmatched : ifMatchCached library ifMatch process.cache = false) :
      Step process (.setManifest call ifMatch)
        (process.finish (α := Unit) call (.error (.derr .hashMismatch [])))
  | receiveManifest {process : Process ω μ} {call : Nat} {stream : ManifestStream}
      {now : Timestamp} {ifMatch : GoString} (checked : process.calls call = .checked ifMatch) :
      Step process (.receiveManifest call stream now)
        (process.proceed call (prepareManifest library stream now) (.prepared ifMatch))
  | syncManifest {process : Process ω μ} {call : Nat} {remoteEtag : GoString} {remote : Bytes}
      {now : Timestamp} (idle : process.calls call = .idle) :
      Step process (.syncManifest call remoteEtag remote now)
        (process.proceed call (syncPhase library remoteEtag remote now process.store) id)
  | commitManifest {process : Process ω μ} {call : Nat} {ifMatch : GoString} {manifest : Prepared μ}
      (free : process.writer = none) (prepared : process.calls call = .prepared ifMatch manifest) :
      Step process (.commitManifest call)
        ({ process with store := (update Bolt.backend
            (manifestTx library process.cache manifest) process.store).2 }.proceed call
          (update Bolt.backend (manifestTx library process.cache manifest) process.store).1
          fun _ => .publishing (publishedModel library manifest))
  | publish {process : Process ω μ} {call : Nat} {model : μ}
      (publishing : process.calls call = .publishing model) :
      Step process (.publish call) ({ process with cache := model }.finish call (.ok ()))
  | deleteManifest {process : Process ω μ} {call : Nat} {ifMatch : GoString} {now : Timestamp}
      (free : process.writer = none) (idle : process.calls call = .idle) :
      Step process (.deleteManifest call ifMatch now)
        ({ process with store := (update Bolt.backend (deleteTx library ifMatch now)
            process.store).2 }.finish call
          (update Bolt.backend (deleteTx library ifMatch now) process.store).1)

theorem step_iff {process next : Process ω μ} :
    (machine library).step process event = some next ↔ Step library process event next := by
  constructor
  · intro stepped
    cases event with
    | setObject call ifMatch object =>
        simp only [machine, Process.step] at stepped
        split at stepped
        · rename_i idle
          cases stepped
          exact .setObject idle
        · cases stepped
    | setRelation call ifMatch relation =>
        simp only [machine, Process.step] at stepped
        split at stepped
        · rename_i idle
          cases stepped
          exact .setRelation idle
        · cases stepped
    | commitData call now =>
        simp only [machine, Process.step] at stepped
        split at stepped
        · rename_i free pending
          cases stepped
          exact .commitData free pending
        · cases stepped
    | importBegin call =>
        simp only [machine, Process.step] at stepped
        split at stepped
        · rename_i free idle
          cases stepped
          exact .importBegin free idle
        · cases stepped
    | importRequest call now request =>
        simp only [machine, Process.step] at stepped
        split at stepped
        · rename_i owned running
          split at stepped
          · rename_i same
            subst same
            cases stepped
            exact .importRequest owned running
          · cases stepped
        · cases stepped
    | importEnd call ending =>
        simp only [machine, Process.step] at stepped
        split at stepped
        · rename_i owned running
          split at stepped
          · rename_i same
            subst same
            split at stepped
            · cases stepped
              exact .importAbort owned running
            · rename_i sent
              cases stepped
              exact .importCommit owned running sent
          · cases stepped
        · cases stepped
    | setManifest call ifMatch =>
        simp only [machine, Process.step] at stepped
        split at stepped
        · rename_i idle
          split at stepped
          · rename_i matched
            cases stepped
            exact .setManifest idle matched
          · rename_i unmatched
            cases stepped
            exact .mismatch idle (Bool.eq_false_iff.mpr unmatched)
        · cases stepped
    | receiveManifest call stream now =>
        simp only [machine, Process.step] at stepped
        split at stepped
        · rename_i checked
          cases stepped
          exact .receiveManifest checked
        · cases stepped
    | syncManifest call remoteEtag remote now =>
        simp only [machine, Process.step] at stepped
        split at stepped
        · rename_i idle
          cases stepped
          exact .syncManifest idle
        · cases stepped
    | commitManifest call =>
        simp only [machine, Process.step] at stepped
        split at stepped
        · rename_i free prepared
          cases stepped
          exact .commitManifest free prepared
        · cases stepped
    | publish call =>
        simp only [machine, Process.step] at stepped
        split at stepped
        · rename_i publishing
          cases stepped
          exact .publish publishing
        · cases stepped
    | deleteManifest call ifMatch now =>
        simp only [machine, Process.step] at stepped
        split at stepped
        · rename_i free idle
          cases stepped
          exact .deleteManifest free idle
        · cases stepped
  · intro step
    cases step <;> simp [machine, Process.step, *]

section Frames

variable {library} {process : Process ω μ} {now : Timestamp} {phase : Phase μ} {next : Process ω μ}
  {body : Tx μ PUnit}

theorem Step.calls_of_ne
    (step : Step library process event next) {other : Nat} (different : other ≠ event.call) :
    next.calls other = process.calls other := by
  cases step with
  | setObject | setRelation | receiveManifest | syncManifest | commitManifest =>
      exact calls_proceed_of_ne different
  | importRequest => rfl
  | _ => exact calls_advance_of_ne different

theorem calls_of_run {final : Process ω μ} {events : List Event}
    (ran : (machine library).run process events = some final)
    (unnamed : ∀ event ∈ events, call ≠ event.call) : final.calls call = process.calls call := by
  induction events generalizing process with
  | nil =>
      cases ran
      rfl
  | cons event rest ih =>
      obtain ⟨next, stepped, remaining⟩ := Machine.run_cons.mp ran
      rw [ih remaining fun later member => unnamed later (List.mem_cons_of_mem event member)]
      exact ((step_iff library).mp stepped).calls_of_ne (unnamed event List.mem_cons_self)

def Phase.Admitted (object : (objectType objectId : GoString) → Prop)
    (relation : RelationIdentifier → Prop) : Phase μ → Prop
  | .setObject _ _ _ row => object row.type row.id
  | .setRelation _ _ _ row => relation row.ident
  | _ => True

theorem dataTx_within {object : (objectType objectId : GoString) → Prop} {relation : RelationIdentifier → Prop}
    (admitted : phase.Admitted object relation) (pending : dataTx now phase = some body) :
    body.Within (Bolt.dataOnly object relation).contract := by
  cases phase with
  | setObject model etag ifMatch row =>
      cases pending
      exact Program.Within.bind (within_setObjectTx admitted etag ifMatch now) fun _ => trivial
  | setRelation model etag ifMatch row =>
      cases pending
      exact Program.Within.bind (within_setRelationTx admitted etag ifMatch now) fun _ => trivial
  | idle | importing | checked | prepared | publishing | finished => cases pending

theorem committed_of_dataTx (pending : dataTx now phase = some body) : phase.committed = none := by
  cases phase with
  | publishing model => cases pending
  | _ => rfl

theorem manifest_commitData (pending : dataTx now phase = some body) (db : Bolt.BoltDB ω) :
    (update Bolt.backend body db).2.bucket .manifest = db.bucket .manifest := by
  have admitted : phase.Admitted (fun _ _ => True) (fun _ => True) := by
    cases phase <;> exact trivial
  exact (dataTx_within admitted pending).commit (Bolt.backend_honours_manifest _) rfl

theorem manifest_importHandler (cache : μ) (now : Timestamp) (request : ImportRequest) (db : Bolt.BoltDB ω) :
    ((importHandler library cache now request).run Bolt.backend db).2.bucket .manifest =
      db.bucket .manifest := by
  have admits : AdmitsMessage library (Bolt.dataOnly (fun _ _ => True) fun _ => True) cache
      request.message := by
    cases request.message with
    | object object => exact fun _ _ _ _ => trivial
    | relation relation => exact fun _ _ _ _ => ⟨trivial, trivial⟩
    | unset => exact trivial
  exact ((within_importHandler cache now admits).run (Bolt.backend_honours_manifest _) rfl).1

theorem Step.seesManifest (step : Step library process event next) (sees : SeesManifest process) :
    SeesManifest next := by
  cases step with
  | setObject | setRelation | receiveManifest | syncManifest => exact sees.proceed _ _ _
  | commitData free | deleteManifest free => exact seesManifest_of_free free
  | commitManifest free =>
      refine SeesManifest.proceed (seesManifest_of_free ?_) _ _ _
      exact free
  | importBegin =>
      intro owner view opened
      cases opened
      rfl
  | importRequest owned =>
      intro owner view opened
      cases opened
      exact (manifest_importHandler _ _ _ _).trans (sees _ _ owned)
  | importAbort | importCommit => exact seesManifest_of_free rfl
  | setManifest | mismatch | publish => exact sees

theorem syncPhase_ok {remoteEtag : GoString} {remote : Bytes} {store : Bolt.BoltDB ω}
    (started : syncPhase library remoteEtag remote now store = .ok phase) :
    phase = .finished (.ok ()) ∨ ∃ manifest, phase = .prepared [] manifest := by
  obtain ⟨etag, _, compared⟩ := except_bind_eq_ok.mp started
  split at compared
  · cases compared
    exact .inl rfl
  · obtain ⟨manifest, _, same⟩ := except_bind_eq_ok.mp compared
    cases same
    exact .inr ⟨manifest, rfl⟩

theorem deleteTx_ok {ifMatch : GoString} {store after : Bolt.BoltDB ω}
    (succeeded : update Bolt.backend (deleteTx library ifMatch now) store = (.ok (), after)) :
    after = store ∨ ∃ metadata model, metadata.etag = library.hashManifest [] ∧
      after = withManifest Bolt.emptyDB metadata ⟨[]⟩ model := by
  obtain ⟨⟨metadata, empty⟩, built, deleting⟩ :=
    Program.run_check_ok (Program.commit_ok.mp succeeded)
  rcases deleteManifestTx_ok (Program.commit_ok.mpr deleting) with same | wiped
  · exact .inl same
  · obtain ⟨_, _, loading⟩ := except_bind_eq_ok.mp built
    obtain ⟨_, _, same⟩ := except_bind_eq_ok.mp loading
    cases same
    exact .inr ⟨_, _, rfl, wiped⟩

theorem Step.move (step : Step library process event next) (sees : SeesManifest process) :
    Quiet library process event next ∨ (∃ call ifMatch manifest after, event = .commitManifest call ∧
      process.calls call = .prepared ifMatch manifest ∧
      update Bolt.backend (manifestTx library process.cache manifest) process.store = (.ok (), after) ∧
      next = { process with store := after }.advance call
        (.publishing (publishedModel library manifest))) ∨
    (∃ call model, event = .publish call ∧ process.calls call = .publishing model ∧
      next = { process with cache := model }.finish call (.ok ())) ∨
    ∃ call ifMatch now after, event = .deleteManifest call ifMatch now ∧
      process.calls call = .idle ∧
      update Bolt.backend (deleteTx library ifMatch now) process.store = (.ok (), after) ∧
      next = { process with store := after }.finish call (.ok ()) := by
  have uncommitted {call : Nat} {phase : Phase μ} (current : process.calls call = phase)
      (absent : phase.committed = none) : (process.calls call).committed = none := by
    rw [current]
    exact absent
  cases step with
  | setObject idle | setRelation idle =>
      left
      apply quiet_proceed (uncommitted idle rfl)
      exact fun _ _ => ⟨rfl, .inl rfl⟩
  | commitData free pending =>
      left
      apply quiet_finish
      · exact manifest_commitData pending process.store
      · rfl
      · rfl
      · exact committed_of_dataTx pending
  | importBegin free idle =>
      left
      apply quiet_advance
      · rfl
      · rfl
      · rfl
      · exact uncommitted idle rfl
      · rfl
      · exact .inl rfl
  | importRequest owned running =>
      exact .inl ⟨rfl, rfl, fun _ => rfl, fun _ => .inr (.inl rfl)⟩
  | importAbort owned running =>
      left
      apply quiet_finish
      · rfl
      · rfl
      · rfl
      · exact uncommitted running rfl
  | importCommit owned running sent =>
      left
      apply quiet_finish
      · exact sees _ _ owned
      · rfl
      · rfl
      · exact uncommitted running rfl
  | setManifest idle matched =>
      left
      apply quiet_advance rfl rfl rfl (uncommitted idle rfl) rfl
      simp only [ifMatchCached, Bool.or_eq_true, decide_eq_true_eq] at matched
      rcases matched with absent | same
      · exact .inl absent
      · exact .inr (.inr ⟨rfl, same⟩)
  | mismatch idle unmatched =>
      left
      apply quiet_finish rfl rfl rfl (uncommitted idle rfl)
  | receiveManifest checked =>
      left
      apply quiet_proceed (uncommitted checked rfl)
      intro manifest _
      rw [checked]
      exact ⟨rfl, .inr rfl⟩
  | syncManifest idle =>
      left
      apply quiet_proceed (uncommitted idle rfl)
      intro phase started
      rcases syncPhase_ok started with rfl | ⟨manifest, rfl⟩ <;> exact ⟨rfl, .inl rfl⟩
  | commitManifest free prepared =>
      rename_i call ifMatch manifest
      cases committed : update Bolt.backend (manifestTx library process.cache manifest)
          process.store with
      | mk outcome after =>
          cases outcome with
          | ok value => exact .inr (.inl ⟨call, ifMatch, manifest, after, rfl, prepared, committed, rfl⟩)
          | error error =>
              left
              rw [Program.commit_error committed]
              exact quiet_advance rfl rfl rfl (uncommitted prepared rfl) rfl (.inl rfl)
  | publish publishing => exact .inr (.inr (.inl ⟨_, _, rfl, publishing, rfl⟩))
  | deleteManifest free idle =>
      rename_i call ifMatch now
      cases committed : update Bolt.backend (deleteTx library ifMatch now) process.store with
      | mk outcome after =>
          cases outcome with
          | ok value => exact .inr (.inr (.inr ⟨call, ifMatch, now, after, rfl, idle, committed, rfl⟩))
          | error error =>
              left
              rw [Program.commit_error committed]
              exact quiet_finish rfl rfl rfl (uncommitted idle rfl)

end Frames

end Eamerald.Concurrency
