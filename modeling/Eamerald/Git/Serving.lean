import Eamerald.Git.Plugin

/-! When the bundle that the git plugin has activated is the configured one. -/

set_option autoImplicit false

namespace Eamerald.Git

open Foundation

variable {environment : Environment} (name : GoString)

section Resolution

variable {clone : Clone} {remote : Remote} {name revision : GoString}

theorem dropPrefix_append (start name : GoString) : (start ++ name).dropPrefix? start = some name :=
  List.dropPrefix?_append_of_beq name (beq_self_eq_true start)

theorem eq_append_of_dropPrefix {text start : GoString} (found : text.dropPrefix? start = some name) :
    text = start ++ name := by
  obtain ⟨leading, split, same⟩ := List.dropPrefix?_eq_some_iff.mp found
  rw [split, eq_of_beq same]

theorem dropPrefix_of_take_ne {first start : GoString} (count : Nat) (name : GoString)
    (long : count ≤ first.length) (other : count ≤ start.length)
    (differ : first.take count ≠ start.take count) : (first ++ name).dropPrefix? start = none := by
  cases found : (first ++ name).dropPrefix? start with
  | none => rfl
  | some rest =>
      have same := congrArg (List.take count) (eq_append_of_dropPrefix found)
      rw [List.take_append_of_le_length long, List.take_append_of_le_length other] at same
      exact absurd same differ

theorem tags_not_origin : (tagsPrefix ++ name).dropPrefix? originPrefix = none :=
  dropPrefix_of_take_ne 6 name (by decide +kernel) (by decide +kernel) (by decide +kernel)

theorem heads_not_origin : (headsPrefix ++ name).dropPrefix? originPrefix = none :=
  dropPrefix_of_take_ne 6 name (by decide +kernel) (by decide +kernel) (by decide +kernel)

theorem heads_not_tags : (headsPrefix ++ name).dropPrefix? tagsPrefix = none :=
  dropPrefix_of_take_ne 6 name (by decide +kernel) (by decide +kernel) (by decide +kernel)

@[simp] theorem resolveRevision_origin :
    clone.resolveRevision (originPrefix ++ name) = clone.tracking name := by
  rw [Clone.resolveRevision, dropPrefix_append]

@[simp] theorem resolveRevision_tag : clone.resolveRevision (tagsPrefix ++ name) = clone.tags name := by
  rw [Clone.resolveRevision, tags_not_origin, dropPrefix_append]

theorem resolveRevision_head :
    clone.resolveRevision (headsPrefix ++ name) = clone.others (headsPrefix ++ name) := by
  rw [Clone.resolveRevision, heads_not_origin, heads_not_tags]

def shortName (ref : GoString) : GoString := trimPrefix (trimPrefix ref headsPrefix) tagsPrefix

theorem resolveRef_eq_ok {ref : GoString} {hash : Hash} : resolveRef clone ref = .ok hash ↔
      (clone.tracking (shortName ref)).or
        ((clone.tags (shortName ref)).or (clone.resolveRevision ref)) = some hash := by
  have found : (candidates ref).findSome? clone.resolveRevision =
      (clone.tracking (shortName ref)).or
        ((clone.tags (shortName ref)).or (clone.resolveRevision ref)) := by
    simp only [candidates, List.findSome?_cons, resolveRevision_origin, resolveRevision_tag,
      List.findSome?_nil, shortName]
    cases clone.tracking _ <;> cases clone.tags _ <;> cases clone.resolveRevision ref <;> rfl
  rw [resolveRef, found]
  cases Option.or (clone.tracking (shortName ref)) _ with
  | none => simp
  | some other => simp

/-- What the clone has under a name is not gone from the remote. -/
def Fresh (found kept : Option Hash) : Prop := found.isSome = true ∨ kept = none

instance {found kept : Option Hash} : Decidable (Fresh found kept) :=
  inferInstanceAs (Decidable (_ ∨ _))

theorem Fresh.or_eq {found kept : Option Hash} (fresh : Fresh found kept) : found.or kept = found := by
  cases found with
  | some hash => rfl
  | none =>
      rcases fresh with missing | gone
      · cases missing
      · exact gone

/-- The lookups in the clone lead to the ref of the remote: nothing in the clone is gone from the
remote, and no tag shares its name with a branch. -/
def Tracks (clone : Clone) (remote : Remote) (ref : GoString) : Prop :=
  match ref.dropPrefix? headsPrefix with
  | some name =>
      trimPrefix name tagsPrefix = name ∧ Fresh (remote.heads name) (clone.tracking name) ∧
        ((remote.heads name).isSome = true ∨ clone.tags name = none ∧ remote.tags name = none ∧
          clone.others ref = none ∧ remote.commits ref = none)
  | none =>
      match ref.dropPrefix? tagsPrefix with
      | some name =>
          remote.heads name = none ∧ clone.tracking name = none ∧
            Fresh (remote.tags name) (clone.tags name)
      | none =>
          ref.dropPrefix? originPrefix = none ∧ Fresh (remote.heads ref) (clone.tracking ref) ∧
            Fresh (remote.tags ref) (clone.tags ref) ∧ Fresh (remote.commits ref) (clone.others ref)

instance {ref : GoString} : Decidable (Tracks clone remote ref) := by
  unfold Tracks
  split
  · infer_instance
  · split <;> infer_instance

theorem trimPrefix_append (start name : GoString) : trimPrefix (start ++ name) start = name := by
  rw [trimPrefix, dropPrefix_append]
  rfl

theorem trimPrefix_of_none {text start : GoString} (other : text.dropPrefix? start = none) :
    trimPrefix text start = text := by
  rw [trimPrefix, other]
  rfl

theorem resolveRef_fetched {ref : GoString} {hash : Hash} (tracks : Tracks clone remote ref)
    (resolved : resolveRef (clone.fetched remote) ref = .ok hash) : remote.denotes ref = some hash := by
  rw [← resolveRef_eq_ok.mp resolved]
  unfold Tracks at tracks
  unfold Remote.denotes
  cases branch : ref.dropPrefix? headsPrefix with
  | some name =>
      rw [branch] at tracks
      obtain ⟨plain, fresh, present⟩ := tracks
      cases eq_append_of_dropPrefix branch
      have short : shortName (headsPrefix ++ name) = name := by
        rw [shortName, trimPrefix_append, plain]
      simp only [short, resolveRevision_head, Clone.fetched, fresh.or_eq]
      rcases present with present | ⟨untagged, missing, alone, unnamed⟩
      · cases found : remote.heads name with
        | some hash => rfl
        | none =>
            rw [found] at present
            cases present
      · rw [missing, untagged, alone, unnamed]
        cases remote.heads name <;> rfl
  | none =>
      rw [branch] at tracks
      cases tag : ref.dropPrefix? tagsPrefix with
      | some name =>
          simp only [tag] at tracks
          obtain ⟨unbranched, untracked, fresh⟩ := tracks
          have short : shortName ref = name := by
            rw [shortName, trimPrefix_of_none branch, trimPrefix, tag]
            rfl
          cases eq_append_of_dropPrefix tag
          simp only [short, resolveRevision_tag, Clone.fetched, fresh.or_eq, unbranched, untracked]
          cases remote.tags name <;> rfl
      | none =>
          simp only [tag] at tracks
          obtain ⟨foreign, branches, tags, commits⟩ := tracks
          have short : shortName ref = ref := by
            rw [shortName, trimPrefix_of_none branch, trimPrefix_of_none tag]
          have third : (clone.fetched remote).resolveRevision ref = (clone.fetched remote).others ref := by
            rw [Clone.resolveRevision, foreign, tag]
          rw [short, third]
          simp only [Clone.fetched, branches.or_eq, tags.or_eq, commits.or_eq]

end Resolution

section Outcomes

variable {ν β : Type} {platform : Platform ν β}

/-- The clone that a synchronisation works on is in its directory already, or is made. -/
def State.held (state : State ν β) : Option Clone :=
  match state.clones state.cacheDir with
  | some clone => some clone
  | none => (state.remotes state.config.repo).map fun remote => remote.cloned state.config.repo

theorem openOrClone_cases (environment : Environment) (state : State ν β) :
    (∃ fault, openOrClone environment state = (.error fault, state)) ∨
      ∃ clone, state.held = some clone ∧ openOrClone environment state = (.ok clone, state.keep clone) := by
  unfold openOrClone
  split
  · rename_i clone found
    split
    · exact .inl ⟨_, rfl⟩
    · have same : state.keep clone = state := by
        rw [State.keep, ← found, Function.update_eq_self]
      exact .inr ⟨clone, by rw [State.held, found], by rw [same]⟩
  · rename_i missing
    split
    · exact .inl ⟨_, rfl⟩
    · split
      · exact .inl ⟨_, rfl⟩
      · split
        · exact .inl ⟨_, rfl⟩
        · exact .inl ⟨_, rfl⟩
        · rename_i remote _ found
          exact .inr ⟨remote.cloned state.config.repo, by rw [State.held, missing, found]; rfl, rfl⟩

theorem fetchAndCheckout_cases (environment : Environment) (clone : Clone) (state : State ν β) :
    (∃ fault, fetchAndCheckout environment clone state = (.error fault, state)) ∨
      ∃ remote, state.remotes clone.origin = some remote ∧ ((∃ fault, fetchAndCheckout environment clone state =
            (.error fault, state.keep (clone.fetched remote))) ∨
          ∃ hash, resolveRef (clone.fetched remote) (ref state.config) = .ok hash ∧
            fetchAndCheckout environment clone state = (.ok hash, state.keep (clone.fetched remote))) := by
  unfold fetchAndCheckout
  split
  · exact .inl ⟨_, rfl⟩
  · split
    · exact .inl ⟨_, rfl⟩
    · exact .inl ⟨_, rfl⟩
    · rename_i remote found _
      right
      refine ⟨remote, found, ?_⟩
      dsimp only
      split
      · exact .inl ⟨_, rfl⟩
      · rename_i hash resolved
        split
        · exact .inl ⟨_, rfl⟩
        · split
          · exact .inl ⟨_, rfl⟩
          · exact .inr ⟨hash, resolved, rfl⟩

def State.found (state : State ν β) : Option Hash :=
  state.held.bind fun clone => (state.remotes clone.origin).bind fun remote =>
    (resolveRef (clone.fetched remote) (ref state.config)).toOption

/-- A clone in the directory of the plugin is one that the plugin found there or made. -/
def State.Reuses (state : State ν β) (clones : GoString → Option Clone) : Prop :=
  ∀ clone, clones state.cacheDir = some clone →
    ∃ held, state.held = some held ∧ clone.origin = held.origin

inductive Outcome (platform : Platform ν β) (state : State ν β) :
    Except Fault Unit × State ν β → Prop where
  | failed (fault : Fault) (clones : GoString → Option Clone) (reuses : state.Reuses clones) :
      Outcome platform state (.error fault, { state with clones })
  | skipped (hash : Hash) (clones : GoString → Option Clone) (reuses : state.Reuses clones)
      (found : state.found = some hash) (last : state.lastHash = some hash) :
      Outcome platform state (.ok (), { state with clones })
  | activated (hash : Hash) (bundle : β) (clones : GoString → Option Clone)
      (reuses : state.Reuses clones) (found : state.found = some hash)
      (fresh : some hash ≠ state.lastHash)
      (built : platform.bundle state.config hash = .ok bundle) :
      Outcome platform state
        (.ok (), { state with clones, active := some bundle, lastHash := some hash })

theorem reuses_self (state : State ν β) : state.Reuses state.clones :=
  fun clone found => ⟨clone, by rw [State.held, found], rfl⟩

theorem reuses_update {state : State ν β} {held kept : Clone} (holds : state.held = some held)
    (same : kept.origin = held.origin) (clones : GoString → Option Clone) :
    state.Reuses (Function.update clones state.cacheDir (some kept)) := by
  intro clone found
  rw [Function.update_self] at found
  cases found
  exact ⟨held, holds, same⟩

theorem sync_outcome (environment : Environment) (state : State ν β) :
    Outcome platform state (sync platform environment state) := by
  unfold sync
  rcases openOrClone_cases environment state with ⟨fault, failed⟩ | ⟨clone, holds, opened⟩
  · rw [failed]
    exact .failed _ state.clones (reuses_self state)
  · rw [opened]
    dsimp only
    have kept := reuses_update holds rfl state.clones
    have again (remote : Remote) :=
      reuses_update holds (show (clone.fetched remote).origin = clone.origin from rfl) (state.keep clone).clones
    rcases fetchAndCheckout_cases environment clone (state.keep clone) with
      ⟨fault, failed⟩ | ⟨remote, found, ⟨fault, failed⟩ | ⟨hash, resolved, fetched⟩⟩
    · rw [failed]
      exact .failed _ _ kept
    · rw [failed]
      exact .failed _ _ (again remote)
    · rw [fetched]
      have reuses := again remote
      have resolves : state.found = some hash := by
        have remembered : state.remotes clone.origin = some remote := found
        have resolved : resolveRef (clone.fetched remote) (ref state.config) = .ok hash := resolved
        rw [State.found, holds, Option.bind_some, remembered, Option.bind_some, resolved]
        rfl
      dsimp only
      split
      · rename_i last
        exact .skipped hash _ reuses resolves last.symm
      · rename_i fresh
        split
        · exact .failed _ _ reuses
        · rename_i bundle built
          unfold activate
          cases environment.activate with
          | error fault => exact .failed _ _ reuses
          | ok _ => exact .activated hash bundle _ reuses resolves fresh built

theorem active_of_error {state : State ν β} {fault : Fault}
    (failed : (sync platform environment state).1 = .error fault) :
    (sync platform environment state).2.active = state.active := by
  have outcome : Outcome platform state (sync platform environment state) :=
    sync_outcome environment state
  revert failed outcome
  generalize sync platform environment state = done
  intro failed outcome
  cases outcome with
  | failed => rfl
  | skipped => rfl
  | activated => cases failed

end Outcomes

section Runs

variable {ν β : Type} (platform : Platform ν β)

/-- The bundle of the commit that the configured ref denotes. -/
def State.configured (state : State ν β) : Option β :=
  (state.remotes state.config.repo).bind fun remote =>
    (remote.denotes (ref state.config)).bind fun hash => (platform.bundle state.config hash).toOption

def Configured (state : State ν β) : Prop :=
  ∃ bundle, state.configured platform = some bundle ∧ state.active = some bundle

/-- The plugin with the configuration under which its bundle was activated. -/
structure Recorded (ν β : Type) where
  state : State ν β
  settings : Option (Config ν) := none

/-- An activation changes the last hash. -/
def recording : Machine (Recorded ν β) (Event ν) where
  step recorded event := ((plugin platform).step recorded.state event).map fun next =>
    { state := next
      settings := if next.lastHash = recorded.state.lastHash then recorded.settings
        else some recorded.state.config }

theorem recording_run (recorded : Recorded ν β) {events : List (Event ν)} {final : State ν β}
    (ran : (plugin platform).run recorded.state events = some final) :
    ∃ settings, (recording platform).run recorded events = some ⟨final, settings⟩ := by
  induction events generalizing recorded with
  | nil =>
      cases ran
      exact ⟨recorded.settings, rfl⟩
  | cons event rest ih =>
      obtain ⟨next, stepped, remaining⟩ := Machine.run_cons.mp ran
      have recordedStep : (recording platform).step recorded event = some ⟨next,
          if next.lastHash = recorded.state.lastHash then recorded.settings
          else some recorded.state.config⟩ := by
        simp only [recording, stepped, Option.map_some]
      obtain ⟨settings, later⟩ := ih ⟨next, _⟩ remaining
      exact ⟨settings, Machine.run_cons.mpr ⟨_, recordedStep, later⟩⟩

def SameSettings (left right : Config ν) : Prop :=
  left.path = right.path ∧ left.skipVerification = right.skipVerification ∧
    left.verificationConfig = right.verificationConfig

instance [DecidableEq ν] {left right : Config ν} : Decidable (SameSettings left right) :=
  inferInstanceAs (Decidable (_ ∧ _))

theorem SameSettings.bundle {left right : Config ν} (same : SameSettings left right) (hash : Hash) :
    platform.bundle left hash = platform.bundle right hash := by
  obtain ⟨path, skip, verification⟩ := same
  rw [Platform.bundle, path, skip, verification]
  rfl

/-- A directory is only reused for the repository of its clone, and the settings change only when the
commit does. -/
def Careful (recorded : Recorded ν β) : Event ν → Prop
  | .reconfigure none => True
  | .reconfigure (some config) =>
      ∀ clone ∈ recorded.state.clones (cacheDir platform config), clone.origin = config.repo
  | .change _ _ => True
  | .sync _ =>
      (∀ clone ∈ recorded.state.held, ∀ remote ∈ recorded.state.remotes recorded.state.config.repo,
        Tracks clone remote (ref recorded.state.config)) ∧
      (recorded.state.found = recorded.state.lastHash →
        ∀ settings ∈ recorded.settings, SameSettings settings recorded.state.config)

instance [DecidableEq ν] (recorded : Recorded ν β) (event : Event ν) :
    Decidable (Careful platform recorded event) := by
  cases event with
  | reconfigure config =>
      cases config with
      | none => exact .isTrue trivial
      | some config => exact inferInstanceAs (Decidable (∀ clone ∈ _, _))
  | change => exact .isTrue trivial
  | sync => exact inferInstanceAs (Decidable (_ ∧ _))

structure Aligned (recorded : Recorded ν β) : Prop where
  opens : ∀ clone, recorded.state.clones recorded.state.cacheDir = some clone →
    clone.origin = recorded.state.config.repo
  serves : ∀ hash, recorded.state.lastHash = some hash → ∃ settings bundle,
    recorded.settings = some settings ∧ platform.bundle settings hash = .ok bundle ∧
      recorded.state.active = some bundle

variable {platform}

theorem Aligned.origin {recorded : Recorded ν β} (aligned : Aligned platform recorded) {clone : Clone}
    (holds : recorded.state.held = some clone) : clone.origin = recorded.state.config.repo := by
  unfold State.held at holds
  split at holds
  · rename_i kept found
    cases holds
    exact aligned.opens _ found
  · obtain ⟨remote, _, made⟩ := Option.map_eq_some_iff.mp holds
    rw [← made]
    rfl

theorem Aligned.step {recorded next : Recorded ν β} {event : Event ν}
    (aligned : Aligned platform recorded) (careful : Careful platform recorded event)
    (stepped : (recording platform).step recorded event = some next) : Aligned platform next := by
  cases event with
  | reconfigure config =>
      cases config with
      | none =>
          simp only [recording, plugin, reconfigure, Option.map_some, ↓reduceIte] at stepped
          cases stepped
          exact aligned
      | some config =>
          simp only [recording, plugin, reconfigure, Option.map_some, ↓reduceIte] at stepped
          cases stepped
          exact ⟨fun clone found => careful clone found, aligned.serves⟩
  | change repo remote =>
      simp only [recording, plugin, Option.map_some, ↓reduceIte] at stepped
      cases stepped
      exact ⟨aligned.opens, aligned.serves⟩
  | sync environment =>
      simp only [recording, plugin, Option.map_some] at stepped
      cases stepped
      have outcome : Outcome platform recorded.state (sync platform environment recorded.state) :=
        sync_outcome environment recorded.state
      revert outcome
      generalize sync platform environment recorded.state = done
      intro outcome
      have opens (clones : GoString → Option Clone) (reuses : recorded.state.Reuses clones)
          (clone : Clone) (found : clones recorded.state.cacheDir = some clone) :
          clone.origin = recorded.state.config.repo := by
        obtain ⟨held, holds, same⟩ := reuses clone found
        exact same.trans (aligned.origin holds)
      cases outcome with
      | failed fault clones reuses =>
          simp only [↓reduceIte]
          exact ⟨opens clones reuses, aligned.serves⟩
      | skipped hash clones reuses found last =>
          simp only [↓reduceIte]
          exact ⟨opens clones reuses, aligned.serves⟩
      | activated hash bundle clones reuses found fresh built =>
          refine ⟨opens clones reuses, fun other last => ?_⟩
          cases last
          refine ⟨recorded.state.config, bundle, ?_, built, rfl⟩
          simp only [if_neg fresh]

theorem Aligned.denotes {recorded : Recorded ν β} (aligned : Aligned platform recorded) (careful : Careful platform recorded (.sync environment)) {hash : Hash}
    (found : recorded.state.found = some hash) :
    ∃ remote, recorded.state.remotes recorded.state.config.repo = some remote ∧
      remote.denotes (ref recorded.state.config) = some hash := by
  obtain ⟨clone, holds, found⟩ := Option.bind_eq_some_iff.mp found
  obtain ⟨remote, there, found⟩ := Option.bind_eq_some_iff.mp found
  rw [aligned.origin holds] at there
  refine ⟨remote, there, resolveRef_fetched (careful.1 clone holds remote there) ?_⟩
  cases answer : resolveRef (clone.fetched remote) (ref recorded.state.config) with
  | error fault =>
      rw [answer] at found
      cases found
  | ok other =>
      rw [answer] at found
      cases found
      rfl

theorem Aligned.configured {recorded : Recorded ν β} (aligned : Aligned platform recorded) (careful : Careful platform recorded (.sync environment))
    (done : (sync platform environment recorded.state).1 = .ok ()) :
    Configured platform (sync platform environment recorded.state).2 := by
  have expected {hash : Hash} {bundle : β} (found : recorded.state.found = some hash)
      (built : platform.bundle recorded.state.config hash = .ok bundle) :
      recorded.state.configured platform = some bundle := by
    obtain ⟨remote, there, denotes⟩ := aligned.denotes careful found
    rw [State.configured, there, Option.bind_some, denotes, Option.bind_some, built]
    rfl
  have outcome : Outcome platform recorded.state (sync platform environment recorded.state) :=
    sync_outcome environment recorded.state
  revert done outcome
  generalize sync platform environment recorded.state = finished
  intro done outcome
  cases outcome with
  | failed => cases done
  | skipped hash clones reuses found last =>
      -- The bundle of the hash was activated under the settings that are still configured.
      obtain ⟨settings, bundle, recordedSettings, built, active⟩ := aligned.serves hash last
      have same := careful.2 (found.trans last.symm) settings recordedSettings
      rw [same.bundle platform hash] at built
      exact ⟨bundle, expected found built, active⟩
  | activated hash bundle clones reuses found fresh built => exact ⟨bundle, expected found built, rfl⟩

end Runs

section Sample

def host : Platform Unit (Hash × GoString × Bool) where
  home := "/home/policy".toList
  join base name := base ++ '/' :: name
  sha256 text := text
  asBundle hash path skip _ := .ok (hash, path, skip)

def noClones : GoString → Option Clone := fun _ => none

def mainAt (hash : Hash) : Remote where
  heads name := if name = "main".toList then some hash else none
  tags name := if name = "v1".toList then some "c1".toList else none
  head := "main".toList
  commits _ := none

def shadowed : Remote :=
  { mainAt "c1".toList with
    heads := fun name => if name = "v1".toList then some "c2".toList else none }

def policies : GoString := "https://example.com/policies.git".toList

def fork : GoString := "https://example.com/fork.git".toList

def hosted : GoString → Option Remote := fun repo =>
  if repo = policies then some (mainAt "c1".toList)
  else if repo = fork then some (mainAt "c2".toList)
  else none

def following : Config Unit := { repo := policies, cacheDir := "/cache".toList }

/-- A push is picked up, and so are another path and another ref where the commit changes. -/
def orderly : List (Event Unit) :=
  [.sync {}, .sync {}, .change policies (some (mainAt "c2".toList)), .sync {},
    .reconfigure (some { following with ref := "refs/tags/v1".toList, path := "rules".toList })]

def started (config : Config Unit) : State Unit (Hash × GoString × Bool) :=
  newGitPlugin host config none noClones hosted

theorem eq_ok_of_isOk {answer : Except Fault Unit} (ok : answer.isOk = true) : answer = .ok () := by
  cases answer with
  | error fault => cases ok
  | ok _ => rfl

/-- After the run a synchronisation succeeds, and the bundle is not the configured one. -/
def Misserved (config : Config Unit) (events : List (Event Unit)) : Prop :=
  ∃ state, (plugin host).run (started config) events = some state ∧
    (sync host {} state).1 = .ok () ∧ ¬ Configured host (sync host {} state).2

theorem misserved_of_run {config : Config Unit} {events : List (Event Unit)}
    (found : ((plugin host).run (started config) events).any (fun state => (sync host {} state).1.isOk &&
        decide ((sync host {} state).2.configured host ≠ (sync host {} state).2.active)) = true) :
    Misserved config events := by
  obtain ⟨state, ran, check⟩ := Machine.exists_final _ _ _ _ found
  obtain ⟨ok, differ⟩ := Bool.and_eq_true_iff.mp check
  refine ⟨state, ran, eq_ok_of_isOk ok, fun configured => ?_⟩
  obtain ⟨bundle, expected, active⟩ := configured
  exact of_decide_eq_true differ (expected.trans active.symm)

end Sample


end Eamerald.Git
