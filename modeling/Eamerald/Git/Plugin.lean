import Eamerald.Api.Messages
import Eamerald.Foundation.Runs

/-! The git policy source. A plugin follows a ref of a remote repository through a clone on
disk, and activates the bundle of the commit that it finds. The remotes, the disk and the
configuration change under it. -/

set_option autoImplicit false

namespace Eamerald.Git

open Foundation

/-- An error of `pkg/errors`, with the messages it was wrapped in. -/
inductive Fault where
  | cause (message : GoString)
  | wrap (fault : Fault) (message : GoString)
deriving DecidableEq, Repr

abbrev Hash := GoString

section Configuration

structure GitAuthConfig where
  username : GoString := []
  token : GoString := []
  sshKeyPath : GoString := []
  sshKeyPassphrase : GoString := []
  knownHostsPath : GoString := []
deriving DecidableEq, Repr

/-- `ν` is the verification configuration of bundles. -/
structure Config (ν : Type) where
  repo : GoString
  ref : GoString := []
  path : GoString := []
  cacheDir : GoString := []
  insecureSkipTLSVerify : Bool := false
  auth : GitAuthConfig := {}
  skipVerification : Bool := false
  verificationConfig : Option ν := none
deriving DecidableEq, Repr

def headsPrefix : GoString := "refs/heads/".toList

def tagsPrefix : GoString := "refs/tags/".toList

def originPrefix : GoString := "refs/remotes/origin/".toList

def defaultRef : GoString := "refs/heads/main".toList

variable {ν β : Type}

def ref (config : Config ν) : GoString :=
  if config.ref = [] then defaultRef else config.ref

/-- The files of a commit are those of its hash, so the loader is a function of hash and settings. -/
structure Platform (ν β : Type) where
  home : GoString
  join : GoString → GoString → GoString
  sha256 : GoString → GoString
  asBundle : Hash → GoString → Bool → Option ν → Except Fault β

def cacheDir (platform : Platform ν β) (config : Config ν) : GoString :=
  if config.cacheDir ≠ [] then config.cacheDir
  else
    platform.join (platform.join (platform.join platform.home ".policy".toList) "git".toList)
      ((platform.sha256 (config.repo ++ '|' :: ref config)).take 16)

inductive AuthMethod where
  | publicKeys (user keyPath passphrase : GoString) (knownHosts : Option GoString)
  | basicAuth (username password : GoString)
deriving DecidableEq, Repr

/-- The fetch reports that it found nothing new as an error. -/
inductive FetchFault where
  | alreadyUpToDate
  | failed (fault : Fault)
deriving DecidableEq, Repr

/-- What the calls of one synchronisation that can fail answer. -/
structure Environment where
  loadKey : GoString → GoString → Except Fault Unit := fun _ _ => .ok ()
  loadKnownHosts : GoString → Except Fault Unit := fun _ => .ok ()
  plainOpen : Except Fault Unit := .ok ()
  mkdirAll : Except Fault Unit := .ok ()
  plainClone : Option AuthMethod → Bool → Except Fault Unit := fun _ _ => .ok ()
  fetch : Option AuthMethod → Bool → Except FetchFault Unit := fun _ _ => .ok ()
  worktree : Except Fault Unit := .ok ()
  checkout : Except Fault Unit := .ok ()
  activate : Except Fault Unit := .ok ()

def authMethod (environment : Environment) (auth : GitAuthConfig) :
    Except Fault (Option AuthMethod) :=
  if auth.sshKeyPath ≠ [] then
    match environment.loadKey auth.sshKeyPath auth.sshKeyPassphrase with
    | .error fault => .error (.wrap fault "load ssh private key".toList)
    | .ok _ =>
        let method := AuthMethod.publicKeys "git".toList auth.sshKeyPath auth.sshKeyPassphrase
        if auth.knownHostsPath ≠ [] then
          match environment.loadKnownHosts auth.knownHostsPath with
          | .error fault => .error (.wrap fault "load known_hosts file".toList)
          | .ok _ => .ok (some (method (some auth.knownHostsPath)))
        else .ok (some (method none))
  else if auth.token ≠ [] then
    let username := if auth.username = [] then "git".toList else auth.username
    .ok (some (.basicAuth username auth.token))
  else .ok none

end Configuration

section Repositories

/-- Branches, tags, the default branch, and the commits that other revisions name. -/
structure Remote where
  heads : GoString → Option Hash
  tags : GoString → Option Hash
  head : GoString
  commits : GoString → Option Hash

/-- The commit that a ref denotes in a repository. A short name is the branch of the name, or
else the tag, or else a commit id. -/
def Remote.denotes (remote : Remote) (ref : GoString) : Option Hash :=
  match ref.dropPrefix? headsPrefix with
  | some name => remote.heads name
  | none =>
      match ref.dropPrefix? tagsPrefix with
      | some name => remote.tags name
      | none => (remote.heads ref).or ((remote.tags ref).or (remote.commits ref))

/-- A clone on disk: where it was cloned from, its remote-tracking branches, its tags, and the
commits of all other revisions. -/
structure Clone where
  origin : GoString
  tracking : GoString → Option Hash
  tags : GoString → Option Hash
  others : GoString → Option Hash

/-- Cloning leaves a local branch for the default branch. -/
def Remote.cloned (remote : Remote) (url : GoString) : Clone where
  origin := url
  tracking := remote.heads
  tags := remote.tags
  others revision := (remote.commits revision).or
    (if revision = headsPrefix ++ remote.head then remote.heads remote.head else none)

/-- Fetching moves the remote-tracking branches and the tags, without pruning: what the remote
has no more is kept. -/
def Clone.fetched (clone : Clone) (remote : Remote) : Clone where
  origin := clone.origin
  tracking name := (remote.heads name).or (clone.tracking name)
  tags name := (remote.tags name).or (clone.tags name)
  others revision := (remote.commits revision).or (clone.others revision)

def Clone.resolveRevision (clone : Clone) (revision : GoString) : Option Hash :=
  match revision.dropPrefix? originPrefix with
  | some name => clone.tracking name
  | none =>
      match revision.dropPrefix? tagsPrefix with
      | some name => clone.tags name
      | none => clone.others revision

def trimPrefix (text start : GoString) : GoString := (text.dropPrefix? start).getD text

def candidates (ref : GoString) : List GoString :=
  let name := trimPrefix (trimPrefix ref headsPrefix) tagsPrefix
  [originPrefix ++ name, tagsPrefix ++ name, ref]

def resolveRef (clone : Clone) (ref : GoString) : Except Fault Hash :=
  match (candidates ref).findSome? clone.resolveRevision with
  | some hash => .ok hash
  | none => .error (.wrap (.cause "reference not found".toList)
      ("resolve git ref '".toList ++ ref ++ "'".toList))

end Repositories

section Plugin

/-- The plugin with the policy engine, the disk and the remotes. `lastHash` is empty at first. -/
structure State (ν β : Type) where
  config : Config ν
  cacheDir : GoString
  lastHash : Option Hash := none
  active : Option β := none
  clones : GoString → Option Clone
  remotes : GoString → Option Remote

variable {ν β : Type} (platform : Platform ν β)

def State.keep (state : State ν β) (clone : Clone) : State ν β :=
  { state with clones := Function.update state.clones state.cacheDir (some clone) }

def newGitPlugin (config : Config ν) (active : Option β) (clones : GoString → Option Clone)
    (remotes : GoString → Option Remote) : State ν β :=
  { config, cacheDir := cacheDir platform config, active, clones, remotes }

def reconfigure (state : State ν β) : Option (Config ν) → State ν β
  | none => state
  | some config => { state with config, cacheDir := cacheDir platform config }

def repositoryNotFound : Fault := .cause "repository not found".toList

/-- A directory that holds a clone is opened, whatever it was cloned from. -/
def openOrClone (environment : Environment) (state : State ν β) :
    Except Fault Clone × State ν β :=
  match state.clones state.cacheDir with
  | some clone =>
      match environment.plainOpen with
      | .error fault => (.error fault, state)
      | .ok _ => (.ok clone, state)
  | none =>
      match authMethod environment state.config.auth with
      | .error fault => (.error fault, state)
      | .ok auth =>
          match environment.mkdirAll with
          | .error fault => (.error (.wrap fault "create cache dir".toList), state)
          | .ok _ =>
              match environment.plainClone auth state.config.insecureSkipTLSVerify,
                state.remotes state.config.repo with
              | .error fault, _ => (.error fault, state)
              | .ok _, none => (.error repositoryNotFound, state)
              | .ok _, some remote =>
                  let clone := remote.cloned state.config.repo
                  (.ok clone, state.keep clone)

def fetchAndCheckout (environment : Environment) (clone : Clone) (state : State ν β) :
    Except Fault Hash × State ν β :=
  match authMethod environment state.config.auth with
  | .error fault => (.error fault, state)
  | .ok auth =>
      match environment.fetch auth state.config.insecureSkipTLSVerify, state.remotes clone.origin with
      | .error (.failed fault), _ => (.error (.wrap fault "git fetch".toList), state)
      | _, none => (.error (.wrap repositoryNotFound "git fetch".toList), state)
      | _, some remote =>
          let clone := clone.fetched remote
          match resolveRef clone (ref state.config) with
          | .error fault => (.error fault, state.keep clone)
          | .ok hash =>
              match environment.worktree with
              | .error fault => (.error fault, state.keep clone)
              | .ok _ =>
                  match environment.checkout with
                  | .error fault => (.error (.wrap fault "git checkout".toList), state.keep clone)
                  | .ok _ => (.ok hash, state.keep clone)

def Platform.bundle (config : Config ν) (hash : Hash) : Except Fault β :=
  platform.asBundle hash config.path config.skipVerification config.verificationConfig

def bundlePath (state : State ν β) : GoString :=
  if state.config.path ≠ [] then platform.join state.cacheDir state.config.path
  else state.cacheDir

/-- The transaction of an activation that fails is rolled back. -/
def activate (environment : Environment) (bundle : β) (state : State ν β) :
    Except Fault Unit × State ν β :=
  match environment.activate with
  | .error fault => (.error fault, state)
  | .ok _ => (.ok (), { state with active := some bundle })

def sync (environment : Environment) (state : State ν β) : Except Fault Unit × State ν β :=
  match openOrClone environment state with
  | (.error fault, state) => (.error (.wrap fault "open or clone git repo".toList), state)
  | (.ok clone, state) =>
      match fetchAndCheckout environment clone state with
      | (.error fault, state) => (.error (.wrap fault "fetch and checkout git ref".toList), state)
      | (.ok hash, state) =>
          if some hash = state.lastHash then (.ok (), state)
          else
            match platform.bundle state.config hash with
            | .error fault => (.error (.wrap fault ("build bundle from git checkout at '".toList
                ++ bundlePath platform state ++ "'".toList)), state)
            | .ok bundle =>
                match activate environment bundle state with
                | (.error fault, state) => (.error (.wrap fault "activate bundle".toList), state)
                | (.ok _, state) => (.ok (), { state with lastHash := some hash })

/-- A push, a moved ref, a changed tag or the loss of a repository all replace what is at its
address. -/
inductive Event (ν : Type) where
  | reconfigure (config : Option (Config ν))
  | change (repo : GoString) (remote : Option Remote)
  | sync (environment : Environment)

def plugin : Machine (State ν β) (Event ν) where
  step state
    | .reconfigure config => some (reconfigure platform state config)
    | .change repo remote =>
        some { state with remotes := Function.update state.remotes repo remote }
    | .sync environment => some (sync platform environment state).2

end Plugin

end Eamerald.Git
