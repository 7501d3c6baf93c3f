import Eamerald.Api.Messages
import Eamerald.Foundation.Runs

/-! The cache of prepared queries and loaded packages under concurrent calls and compiler
rotations. A cached value is known by the number of rotations that were installed when the
compiler or the store it was built from was read. -/

set_option autoImplicit false

namespace Eamerald.Authorizer

open Foundation

def cacheKey (path : GoString) (decisions : List GoString) : GoString :=
  path ++ '\x1f' :: (decisions.intersperse ['\x1e']).flatten

inductive CacheRequest (κ : Type) where
  | decisionQuery (key : κ)
  | policyPackages
deriving DecidableEq, Repr

/-- How far a call is. It knows how many triggers had finished when it started. -/
inductive CacheCall (κ : Type) where
  | idle
  | entered (request : CacheRequest κ) (since : Nat)
  | registering (request : CacheRequest κ) (since : Nat)
  | looking (request : CacheRequest κ) (since : Nat)
  | missed (key : κ) (since : Nat)
  | leading (key : κ) (since : Nat)
  | building (key : κ) (since : Nat)
  | compiled (key : κ) (since generation : Nat)
  | prepared (key : κ) (since generation : Nat)
  | holding (key : κ) (since : Nat) (result : Option Nat)
  | waiting (leader since : Nat)
  | reading (since : Nat)
  | listed (since generation : Nat)
  | returned (since : Nat) (result : Option Nat)
deriving DecidableEq, Repr

/-- A rotation installs the compiler and the store, then runs the trigger, which drops the
packages and then the queries. -/
inductive Rotation where
  | idle
  | installed
  | dropping
deriving DecidableEq, Repr

/-- The watcher is claimed by the first call and registered by it a step later. -/
inductive Watcher where
  | absent
  | claimed
  | registered
deriving DecidableEq, Repr

structure QueryCache (κ : Type) where
  generation : Nat := 0
  finished : Nat := 0
  rotation : Rotation := .idle
  watcher : Watcher := .absent
  entries : κ → Option Nat := fun _ => none
  packages : Option Nat := none
  flights : κ → Option Nat := fun _ => none
  calls : Nat → CacheCall κ := fun _ => .idle

inductive CacheAction (κ : Type) where
  | start (request : CacheRequest κ)
  | claim
  | register
  | load
  | join
  | recheck
  | compile
  | prepare
  | fail
  | store
  | land
deriving DecidableEq, Repr

inductive CacheEvent (κ : Type) where
  | call (call : Nat) (action : CacheAction κ)
  | install
  | dropPackages
  | dropEntries
  | noTrigger
deriving DecidableEq, Repr

namespace QueryCache

variable {κ : Type} [DecidableEq κ] (state : QueryCache κ)

def advance (call : Nat) (phase : CacheCall κ) : QueryCache κ :=
  { state with calls := Function.update state.calls call phase }

def deliver (leader : Nat) (result : Option Nat) : QueryCache κ :=
  { state with calls := fun call =>
      match state.calls call with
      | .waiting other since => if other = leader then .returned since result else .waiting other since
      | phase => phase }

/-- `ensureCompilerWatcher` up to the registration. -/
def claim (call : Nat) (request : CacheRequest κ) (since : Nat) : QueryCache κ :=
  match state.watcher with
  | .absent => { state with watcher := .claimed }.advance call (.registering request since)
  | _ => state.advance call (.looking request since)

def load (call : Nat) (request : CacheRequest κ) (since : Nat) : QueryCache κ :=
  match request with
  | .decisionQuery key =>
      match state.entries key with
      | some generation => state.advance call (.returned since (some generation))
      | none => state.advance call (.missed key since)
  | .policyPackages =>
      match state.packages with
      | some generation => state.advance call (.returned since (some generation))
      | none => state.advance call (.reading since)

/-- One build for a key at a time: the first to miss leads, the others wait for it. -/
def join (call : Nat) (key : κ) (since : Nat) : QueryCache κ :=
  match state.flights key with
  | some leader => state.advance call (.waiting leader since)
  | none => { state with flights := Function.update state.flights key (some call) }.advance call
      (.leading key since)

def recheck (call : Nat) (key : κ) (since : Nat) : QueryCache κ :=
  match state.entries key with
  | some generation => state.advance call (.holding key since (some generation))
  | none => state.advance call (.building key since)

def callStep (call : Nat) (action : CacheAction κ) : Option (QueryCache κ) :=
  match action, state.calls call with
  | .start request, .idle => some (state.advance call (.entered request state.finished))
  | .claim, .entered request since => some (state.claim call request since)
  | .register, .registering request since =>
      some ({ state with watcher := .registered }.advance call (.looking request since))
  | .load, .looking request since => some (state.load call request since)
  | .join, .missed key since => some (state.join call key since)
  | .recheck, .leading key since => some (state.recheck call key since)
  | .compile, .building key since => some (state.advance call (.compiled key since state.generation))
  | .prepare, .compiled key since generation =>
      some (state.advance call (.prepared key since generation))
  | .prepare, .reading since => some (state.advance call (.listed since state.generation))
  | .fail, .building key since => some (state.advance call (.holding key since none))
  | .fail, .compiled key since _ => some (state.advance call (.holding key since none))
  | .fail, .reading since => some (state.advance call (.returned since none))
  | .store, .prepared key since generation => some
      ({ state with entries := Function.update state.entries key (some generation) }.advance call
        (.holding key since (some generation)))
  | .store, .listed since generation => some
      ({ state with packages := some generation }.advance call (.returned since (some generation)))
  | .land, .holding key since result => some
      (({ state with flights := Function.update state.flights key none }.advance call
        (.returned since result)).deliver call result)
  | _, _ => none

end QueryCache

/-- The cache with its calls and rotations. Without a registered watcher a rotation runs no
trigger. -/
def queryCache (κ : Type) [DecidableEq κ] : Machine (QueryCache κ) (CacheEvent κ) where
  step state event :=
    match event, state.rotation with
    | .call call action, _ => state.callStep call action
    | .install, .idle => some { state with generation := state.generation + 1, rotation := .installed }
    | .dropPackages, .installed =>
        if state.watcher = .registered then some { state with packages := none, rotation := .dropping }
        else none
    | .noTrigger, .installed =>
        if state.watcher = .registered then none
        else some { state with finished := state.generation, rotation := .idle }
    | .dropEntries, .dropping => some
        { state with entries := fun _ => none, finished := state.generation, rotation := .idle }
    | _, _ => none

section Freshness

variable {κ : Type} {phase : CacheCall κ}

def CacheCall.flying : CacheCall κ → Option Nat
  | .compiled _ _ generation => some generation
  | .prepared _ _ generation => some generation
  | .holding _ _ result => result
  | _ => none

/-- No call returned a value that is older than the last rotation whose trigger had finished when
the call started. -/
def NeverStale (state : QueryCache κ) : Prop :=
  ∀ call since generation, state.calls call = .returned since (some generation) → since ≤ generation

/-- When the trigger drops packages or queries, no call has any from before the rotation on its way to
the cache. A rotation without a trigger finds nothing old at all. -/
def Quiet (state : QueryCache κ) : CacheEvent κ → Prop
  | .dropPackages => ∀ call since generation, state.calls call = .listed since generation →
      state.generation ≤ generation
  | .dropEntries => ∀ call generation, (state.calls call).flying = some generation →
      state.generation ≤ generation
  | .noTrigger =>
      (∀ call since generation, state.calls call = .listed since generation →
        state.generation ≤ generation) ∧
      (∀ call generation, (state.calls call).flying = some generation →
        state.generation ≤ generation) ∧
      (∀ key generation, state.entries key = some generation → state.generation ≤ generation) ∧
      ∀ generation, state.packages = some generation → state.generation ≤ generation
  | _ => True

/-- Nothing a call has is older than the last trigger that dropped its kind. -/
def CacheCall.Fresh (finished floor : Nat) : CacheCall κ → Prop
  | .idle => True
  | .entered _ since | .registering _ since | .looking _ since | .missed _ since | .leading _ since
  | .building _ since | .waiting _ since | .reading since => since ≤ finished
  | .compiled _ since generation | .prepared _ since generation =>
      since ≤ finished ∧ finished ≤ generation
  | .holding _ since result => since ≤ finished ∧ ∀ generation, result = some generation →
      finished ≤ generation
  | .listed since generation => since ≤ finished ∧ floor ≤ generation
  | .returned since result => ∀ generation, result = some generation → since ≤ generation

def QueryCache.floor (state : QueryCache κ) : Nat :=
  if state.rotation = .dropping then state.generation else state.finished

structure QueryCache.Fresh (state : QueryCache κ) : Prop where
  clock : state.finished ≤ state.generation
  entries : ∀ key generation, state.entries key = some generation → state.finished ≤ generation
  packages : ∀ generation, state.packages = some generation → state.floor ≤ generation
  calls : ∀ call, (state.calls call).Fresh state.finished state.floor

variable {state : QueryCache κ}

theorem QueryCache.Fresh.finished_le_floor (fresh : state.Fresh) : state.finished ≤ state.floor := by
  unfold QueryCache.floor
  split
  case isTrue => exact fresh.clock
  case isFalse => exact le_rfl

theorem QueryCache.Fresh.floor_le (fresh : state.Fresh) : state.floor ≤ state.generation := by
  unfold QueryCache.floor
  split
  case isTrue => exact le_rfl
  case isFalse => exact fresh.clock

theorem QueryCache.Fresh.advance [DecidableEq κ] (fresh : state.Fresh) (call : Nat) (kept : phase.Fresh state.finished state.floor) :
    (state.advance call phase).Fresh := by
  refine ⟨fresh.clock, fresh.entries, fresh.packages, fun other => ?_⟩
  simp only [QueryCache.advance]
  by_cases same : other = call
  · subst same
    rw [Function.update_self]
    exact kept
  · rw [Function.update_of_ne same]
    exact fresh.calls other

theorem QueryCache.Fresh.deliver (fresh : state.Fresh) (leader : Nat) {result : Option Nat}
    (kept : ∀ generation, result = some generation → state.finished ≤ generation) :
    (state.deliver leader result).Fresh := by
  refine ⟨fresh.clock, fresh.entries, fresh.packages, fun other => ?_⟩
  have before := fresh.calls other
  simp only [QueryCache.deliver]
  split
  case h_1 awaited since phase =>
    rw [phase] at before
    split
    case isTrue => exact fun generation found => before.trans (kept generation found)
    case isFalse => exact before
  case h_2 => exact before

theorem QueryCache.Fresh.store [DecidableEq κ] (fresh : state.Fresh) (key : κ) {generation : Nat}
    (kept : state.finished ≤ generation) :
    { state with entries := Function.update state.entries key (some generation) }.Fresh := by
  refine ⟨fresh.clock, fun other found present => ?_, fresh.packages, fresh.calls⟩
  change Function.update state.entries key (some generation) other = some found at present
  by_cases same : other = key
  · subst same
    rw [Function.update_self] at present
    cases present
    exact kept
  · rw [Function.update_of_ne same] at present
    exact fresh.entries other found present

section Steps

variable [DecidableEq κ] (fresh : state.Fresh) (call : Nat) {since : Nat}

include fresh

theorem QueryCache.Fresh.claim {request : CacheRequest κ}
    (begun : since ≤ state.finished) : (state.claim call request since).Fresh := by
  unfold QueryCache.claim
  split
  case h_1 =>
    have claimed : { state with watcher := .claimed }.Fresh :=
      ⟨fresh.clock, fresh.entries, fresh.packages, fresh.calls⟩
    exact claimed.advance call begun
  case h_2 => exact fresh.advance call begun

theorem QueryCache.Fresh.load {request : CacheRequest κ}
    (begun : since ≤ state.finished) : (state.load call request since).Fresh := by
  unfold QueryCache.load
  split
  case h_1 key =>
    split
    case h_1 generation found =>
      refine fresh.advance call ?_
      rintro _ ⟨⟩
      exact begun.trans (fresh.entries key generation found)
    case h_2 => exact fresh.advance call begun
  case h_2 =>
    split
    case h_1 generation found =>
      refine fresh.advance call ?_
      rintro _ ⟨⟩
      exact begun.trans (fresh.finished_le_floor.trans (fresh.packages generation found))
    case h_2 => exact fresh.advance call begun

theorem QueryCache.Fresh.join {key : κ} (begun : since ≤ state.finished) :
    (state.join call key since).Fresh := by
  unfold QueryCache.join
  split
  case h_1 => exact fresh.advance call begun
  case h_2 =>
    have opened : { state with flights := Function.update state.flights key (some call) }.Fresh :=
      ⟨fresh.clock, fresh.entries, fresh.packages, fresh.calls⟩
    exact opened.advance call begun

theorem QueryCache.Fresh.recheck {key : κ} (begun : since ≤ state.finished) :
    (state.recheck call key since).Fresh := by
  unfold QueryCache.recheck
  split
  case h_1 generation found =>
    refine fresh.advance call ⟨begun, ?_⟩
    rintro _ ⟨⟩
    exact fresh.entries key generation found
  case h_2 => exact fresh.advance call begun

theorem QueryCache.Fresh.callStep {action : CacheAction κ} {next : QueryCache κ}
    (stepped : state.callStep call action = some next) : next.Fresh := by
  have before := fresh.calls call
  unfold QueryCache.callStep at stepped
  split at stepped
  case h_1 request phase =>
    cases stepped
    exact fresh.advance call le_rfl
  case h_2 request since phase =>
    cases stepped
    exact fresh.claim call (by rwa [phase] at before)
  case h_3 request since phase =>
    cases stepped
    have registered : { state with watcher := .registered }.Fresh :=
      ⟨fresh.clock, fresh.entries, fresh.packages, fresh.calls⟩
    exact registered.advance call (by rwa [phase] at before)
  case h_4 request since phase =>
    cases stepped
    exact fresh.load call (by rwa [phase] at before)
  case h_5 key since phase =>
    cases stepped
    exact fresh.join call (by rwa [phase] at before)
  case h_6 key since phase =>
    cases stepped
    exact fresh.recheck call (by rwa [phase] at before)
  case h_7 key since phase =>
    cases stepped
    rw [phase] at before
    exact fresh.advance call ⟨before, fresh.clock⟩
  case h_8 key since generation phase =>
    cases stepped
    rw [phase] at before
    exact fresh.advance call before
  case h_9 since phase =>
    cases stepped
    rw [phase] at before
    exact fresh.advance call ⟨before, fresh.floor_le⟩
  case h_10 key since phase =>
    cases stepped
    rw [phase] at before
    exact fresh.advance call ⟨before, fun _ => (nomatch ·)⟩
  case h_11 key since generation phase =>
    cases stepped
    rw [phase] at before
    exact fresh.advance call ⟨before.1, fun _ => (nomatch ·)⟩
  case h_12 since phase =>
    cases stepped
    exact fresh.advance call fun _ => (nomatch ·)
  case h_13 key since generation phase =>
    cases stepped
    rw [phase] at before
    refine (fresh.store key before.2).advance call ⟨before.1, ?_⟩
    rintro _ ⟨⟩
    exact before.2
  case h_14 since generation phase =>
    cases stepped
    rw [phase] at before
    have stored : { state with packages := some generation }.Fresh := by
      refine ⟨fresh.clock, fresh.entries, ?_, fresh.calls⟩
      rintro _ ⟨⟩
      exact before.2
    refine stored.advance call ?_
    rintro _ ⟨⟩
    exact before.1.trans (fresh.finished_le_floor.trans before.2)
  case h_15 key since result phase =>
    cases stepped
    rw [phase] at before
    have closed : { state with flights := Function.update state.flights key none }.Fresh :=
      ⟨fresh.clock, fresh.entries, fresh.packages, fresh.calls⟩
    refine (closed.advance call ?_).deliver call before.2
    exact fun generation found => before.1.trans (before.2 generation found)
  case h_16 => cases stepped

end Steps

theorem CacheCall.Fresh.flying {finished floor generation : Nat}
    (fresh : phase.Fresh finished floor) (flies : phase.flying = some generation) : finished ≤ generation := by
  cases phase with
  | compiled key since built =>
      cases flies
      exact fresh.2
  | prepared key since built =>
      cases flies
      exact fresh.2
  | holding key since result => exact fresh.2 generation flies
  | _ => cases flies

theorem CacheCall.Fresh.renew {finished floor later raised : Nat}
    (fresh : phase.Fresh finished floor) (moved : finished ≤ later)
    (flies : ∀ generation, phase.flying = some generation → later ≤ generation)
    (lists : ∀ since generation, phase = .listed since generation → raised ≤ generation) :
    phase.Fresh later raised := by
  cases phase with
  | idle => trivial
  | compiled key since generation => exact ⟨fresh.1.trans moved, flies generation rfl⟩
  | prepared key since generation => exact ⟨fresh.1.trans moved, flies generation rfl⟩
  | holding key since result => exact ⟨fresh.1.trans moved, flies⟩
  | listed since generation => exact ⟨fresh.1.trans moved, lists since generation rfl⟩
  | returned since result => exact fresh
  | _ => exact Nat.le_trans fresh moved

theorem fresh_step [DecidableEq κ] (state : QueryCache κ) (event : CacheEvent κ)
    (next : QueryCache κ) (fresh : state.Fresh) (quiet : Quiet state event)
    (stepped : (queryCache κ).step state event = some next) : next.Fresh := by
  simp only [queryCache] at stepped
  split at stepped
  case h_1 => exact fresh.callStep _ stepped
  case h_2 idle =>
    cases stepped
    have floor : state.floor = state.finished := by simp [QueryCache.floor, idle]
    exact ⟨fresh.clock.trans (Nat.le_succ _), fresh.entries, fun generation found =>
      floor ▸ fresh.packages generation found, fun call => floor ▸ fresh.calls call⟩
  case h_3 installed =>
    split at stepped
    case isTrue =>
      cases stepped
      refine ⟨fresh.clock, fresh.entries, fun _ => (nomatch ·), fun call => ?_⟩
      exact (fresh.calls call).renew le_rfl (fun _ => (fresh.calls call).flying)
        (quiet call)
    case isFalse => cases stepped
  case h_4 installed =>
    split at stepped
    case isTrue => cases stepped
    case isFalse =>
      cases stepped
      obtain ⟨lists, flies, entries, packages⟩ := quiet
      exact ⟨le_rfl, entries, packages, fun call =>
        (fresh.calls call).renew fresh.clock (flies call) (lists call)⟩
  case h_5 dropping =>
    cases stepped
    have floor : state.floor = state.generation := by simp [QueryCache.floor, dropping]
    refine ⟨le_rfl, fun _ _ => (nomatch ·), fun generation found =>
      floor ▸ fresh.packages generation found, fun call => ?_⟩
    refine (fresh.calls call).renew fresh.clock (quiet call) fun since generation phase => ?_
    have kept := fresh.calls call
    rw [phase, floor] at kept
    exact kept.2
  case h_6 => cases stepped

theorem QueryCache.Fresh.neverStale (fresh : state.Fresh) : NeverStale state := by
  intro call since generation returned
  have kept := fresh.calls call
  rw [returned] at kept
  exact kept generation rfl

/-- In every run in which no build from before a rotation is still on its way when the trigger
drops the cache, no call gets a value from before a rotation it started after. -/
theorem cache_serves_current_policy [DecidableEq κ] (events : List (CacheEvent κ))
    (state : QueryCache κ) (quiet : (queryCache κ).Respects Quiet {} events)
    (ran : (queryCache κ).run {} events = some state) : NeverStale state := by
  have initial : QueryCache.Fresh ({} : QueryCache κ) :=
    ⟨le_rfl, fun _ _ => (nomatch ·), fun _ => (nomatch ·), fun _ => trivial⟩
  exact (Machine.invariant_of_run fresh_step initial quiet ran).neverStale

end Freshness

section Examples

def readKey : GoString := cacheKey "authz".toList ["read".toList]

def queries (call : Nat) (actions : List (CacheAction GoString)) : List (CacheEvent GoString) :=
  actions.map (.call call)

def buildsFirst : List (CacheEvent GoString) :=
  queries 0 [.start (.decisionQuery readKey), .claim, .register, .load, .join, .recheck, .compile,
    .prepare]

def looksUp (call : Nat) : List (CacheEvent GoString) :=
  queries call [.start (.decisionQuery readKey), .claim, .load]

def rotates : List (CacheEvent GoString) := [.install, .dropPackages, .dropEntries]

def orderlyRun : List (CacheEvent GoString) :=
  buildsFirst ++ queries 0 [.store, .land] ++ rotates ++ looksUp 1 ++
    queries 1 [.join, .recheck, .compile, .prepare, .store, .land]

def slowBuilderRun : List (CacheEvent GoString) :=
  buildsFirst ++ rotates ++ queries 0 [.store, .land] ++ looksUp 1

theorem orderlyRun_serves_current :
    ∃ state, (queryCache GoString).run {} orderlyRun = some state ∧
      state.calls 1 = .returned 1 (some 1) ∧ NeverStale state := by
  have quiet : (queryCache GoString).Respects Quiet {} orderlyRun := by
    iterate 11 refine Machine.respects_cons rfl trivial ?_
    refine Machine.respects_cons rfl ?_ (Machine.respects_cons rfl ?_ ?_)
    · intro call since generation
      cases call with
      | zero => exact (nomatch ·)
      | succ call => exact (nomatch ·)
    · intro call generation
      cases call with
      | zero => exact (nomatch ·)
      | succ call => exact (nomatch ·)
    · iterate 9 refine Machine.respects_cons rfl trivial ?_
      trivial
  obtain ⟨state, ran, served⟩ := (queryCache GoString).exists_final {} orderlyRun
    (fun state => state.calls 1 = .returned 1 (some 1)) (by decide +kernel)
  exact ⟨state, ran, of_decide_eq_true served, cache_serves_current_policy orderlyRun state quiet ran⟩

/-- The call that starts after the rotation gets the query from before it. -/
theorem slowBuilder_serves_retired :
    ∃ state, (queryCache GoString).run {} slowBuilderRun = some state ∧
      state.calls 1 = .returned 1 (some 0) ∧ ¬NeverStale state := by
  obtain ⟨state, ran, served⟩ := (queryCache GoString).exists_final {} slowBuilderRun
    (fun state => state.calls 1 = .returned 1 (some 0)) (by decide +kernel)
  have returned := of_decide_eq_true served
  refine ⟨state, ran, returned, fun fresh => ?_⟩
  exact absurd (fresh 1 1 0 returned) (by decide)

end Examples

end Eamerald.Authorizer
