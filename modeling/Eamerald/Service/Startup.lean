import Eamerald.Api.Messages
import Eamerald.Foundation.Handshake

/-! Starting the gRPC servers of a configuration. Every server waits for a signal from each
server it depends on, begins to serve, and then sends one signal on its `Started` channel,
which has no buffer. -/

set_option autoImplicit false

namespace Eamerald.Service

open Foundation

structure API where
  listenAddress : GoString
  needs : List GoString := []
deriving DecidableEq, Repr

abbrev Services := List (GoString × API)

abbrev DependencyMap := Std.ExtTreeMap GoString (List GoString)

def DependencyMap.of (map : DependencyMap) (address : GoString) : List GoString :=
  map[address]?.getD []

def addDependency (map : DependencyMap) (address dependency : GoString) : DependencyMap :=
  if dependency ∉ map.of address ∧ address ≠ dependency then
    map.insert address (map.of address ++ [dependency])
  else map

def addNeed (services : Services) (address : GoString) (map : DependencyMap) (name : GoString) :
    DependencyMap :=
  match services.lookup name with
  | some dependencyConfig => addDependency map address dependencyConfig.listenAddress
  | none => map

def dependencyMap (services : Services) : DependencyMap :=
  services.foldl (fun map entry => entry.2.needs.foldl (addNeed services entry.2.listenAddress) map) ∅

def servers (services : Services) : Finset GoString :=
  (services.map fun entry => entry.2.listenAddress).toFinset

def graph (services : Services) : Dependencies GoString where
  processes := servers services
  dependsOn := (dependencyMap services).of

def startServers (services : Services) : Machine (GoString → Phase GoString) (HandshakeEvent GoString) :=
  handshake (graph services)

section Map

variable {services : Services} {map : DependencyMap} {address dependency : GoString}

theorem of_addDependency (one : GoString) : (addDependency map address dependency).of one =
      if one = address ∧ dependency ∉ map.of address ∧ address ≠ dependency
      then map.of address ++ [dependency] else map.of one := by
  unfold addDependency
  split
  case isTrue fresh =>
    by_cases same : one = address
    · subst same
      rw [if_pos ⟨rfl, fresh⟩]
      simp [DependencyMap.of]
    · have apart : compare address one ≠ .eq := by
        simpa [Std.LawfulEqCmp.compare_eq_iff_eq] using Ne.symm same
      simp [DependencyMap.of, same, Std.ExtTreeMap.getElem?_insert, apart]
  case isFalse known => simp [known]

/-- No server depends on itself or twice on another, nor on what no service needs. -/
structure Lifted (services : Services) (map : DependencyMap) : Prop where
  nodup : ∀ address, (map.of address).Nodup
  named : ∀ address dependency, dependency ∈ map.of address →
    address ≠ dependency ∧ ∃ entry ∈ services, entry.2.listenAddress = address ∧
      ∃ name ∈ entry.2.needs, ∃ config, services.lookup name = some config ∧
        config.listenAddress = dependency

theorem Lifted.addNeed (lifted : Lifted services map) {entry : GoString × API}
    (configured : entry ∈ services) {name : GoString} (need : name ∈ entry.2.needs) :
    Lifted services (addNeed services entry.2.listenAddress map name) := by
  unfold Service.addNeed
  cases found : services.lookup name with
  | none => exact lifted
  | some config =>
      refine ⟨fun address => ?_, fun address dependency member => ?_⟩
      · simp only [of_addDependency]
        split
        case isTrue fresh =>
          refine (lifted.nodup _).append (List.nodup_singleton _) ?_
          simpa using fresh.2.1
        case isFalse => exact lifted.nodup address
      · rw [of_addDependency] at member
        split at member
        case isTrue fresh =>
          obtain ⟨rfl, _, apart⟩ := fresh
          rcases List.mem_append.mp member with old | added
          · exact lifted.named _ dependency old
          · cases List.mem_singleton.mp added
            exact ⟨apart, entry, configured, rfl, name, need, config, found, rfl⟩
        case isFalse => exact lifted.named address dependency member

theorem lifted_foldl_needs (lifted : Lifted services map) {entry : GoString × API}
    (configured : entry ∈ services) {names : List GoString} (needs : names ⊆ entry.2.needs) :
    Lifted services (names.foldl (addNeed services entry.2.listenAddress) map) := by
  induction names generalizing map with
  | nil => exact lifted
  | cons name names ih =>
      exact ih (lifted.addNeed configured (needs List.mem_cons_self))
        fun other member => needs (List.mem_cons_of_mem name member)

theorem lifted_foldl {entries : Services} (within : entries ⊆ services) (lifted : Lifted services map) :
    Lifted services (entries.foldl
      (fun map entry => entry.2.needs.foldl (addNeed services entry.2.listenAddress) map) map) := by
  induction entries generalizing map with
  | nil => exact lifted
  | cons entry entries ih =>
      refine ih (fun other member => within (List.mem_cons_of_mem entry member)) ?_
      exact lifted_foldl_needs lifted (within List.mem_cons_self) (List.Subset.refl _)

theorem lifted_dependencyMap (services : Services) : Lifted services (dependencyMap services) := by
  refine lifted_foldl (List.Subset.refl _) ⟨fun address => ?_, fun address dependency member => ?_⟩
  · exact List.nodup_nil
  · cases member

theorem mem_of_lookup {name : GoString} {config : API} {entries : Services}
    (found : entries.lookup name = some config) : ∃ entry ∈ entries, entry.2 = config := by
  induction entries with
  | nil => cases found
  | cons entry entries ih =>
      obtain ⟨key, value⟩ := entry
      rw [List.lookup_cons] at found
      split at found
      case h_1 =>
        cases found
        exact ⟨_, List.mem_cons_self, rfl⟩
      case h_2 =>
        obtain ⟨entry, member, same⟩ := ih found
        exact ⟨entry, List.mem_cons_of_mem _ member, same⟩

theorem closed_graph {address dependency : GoString}
    (depends : dependency ∈ (graph services).dependsOn address) : dependency ∈ servers services := by
  obtain ⟨_, _, _, _, _, _, config, found, rfl⟩ :=
    (lifted_dependencyMap services).named address dependency depends
  obtain ⟨entry, member, rfl⟩ := mem_of_lookup found
  exact List.mem_toFinset.mpr (List.mem_map.mpr ⟨entry, member, rfl⟩)

end Map

/-- The dependencies of the servers have no cycle. -/
def Satisfiable (services : Services) : Prop :=
  ∀ address, ¬Relation.TransGen (fun one other => other ∈ (graph services).dependsOn one)
    address address

theorem Satisfiable.acyclic {services : Services} (satisfiable : Satisfiable services) :
    (graph services).Acyclic where
  closed _ _ _ depends := closed_graph depends
  nodup := (lifted_dependencyMap services).nodup
  acyclic := satisfiable

def Serves (state : GoString → Phase GoString) (address : GoString) : Prop := (state address).Begun

/-- Until all servers serve some goroutine can take a step, and dependencies serve first. -/
structure StartsUp (services : Services) (state : GoString → Phase GoString) : Prop where
  progress : ∀ address ∈ servers services, ¬Serves state address →
    ∃ event next, (startServers services).step state event = some next
  ordered : ∀ address ∈ servers services, Serves state address →
    ∀ dependency ∈ (graph services).dependsOn address, Serves state dependency

/-- With dependencies that have no cycle, start-up never gets stuck exactly when no server is one
that two others depend on. -/
theorem startServers_startsUp_iff (services : Services) (satisfiable : Satisfiable services) :
    (∀ events state, (startServers services).run (graph services).initial events = some state →
      StartsUp services state) ↔
      ∀ address ∈ servers services, ∀ other ∈ servers services, ∀ dependency,
        dependency ∈ (graph services).dependsOn address →
        dependency ∈ (graph services).dependsOn other → address = other := by
  have acyclic := satisfiable.acyclic
  have live := handshake_live_iff acyclic
  constructor
  · intro startsUp
    exact live.mp fun events state ran => (startsUp events state ran).progress
  · intro alone events state ran
    refine ⟨live.mpr alone events state ran, fun address _ serves dependency depends => ?_⟩
    exact (accounted_of_run acyclic.nodup ran).ordered serves depends

section Examples

theorem satisfiable_of_hub {services : Services} (hub : GoString)
    (needed : ∀ address dependency, dependency ∈ (graph services).dependsOn address →
      dependency = hub) : Satisfiable services := by
  intro address cycle
  -- the last step of a cycle starts at the hub, and a server does not depend on itself
  have ends : ∀ {one other}, Relation.TransGen
      (fun one other => other ∈ (graph services).dependsOn one) one other → other = hub := by
    intro one other path
    cases path with
    | single depends => exact needed _ _ depends
    | tail _ depends => exact needed _ _ depends
  have atHub := ends cycle
  subst atHub
  obtain ⟨next, depends, _⟩ := Relation.TransGen.head'_iff.mp cycle
  exact ((lifted_dependencyMap services).named _ _ depends).1 (needed _ _ depends).symm

def readerAddress : GoString := "localhost:9292".toList

def reader : GoString × API := ("reader".toList, ⟨readerAddress, []⟩)

def withReader (clients : List (String × String)) : Services :=
  reader :: clients.map fun client =>
    (client.1.toList, ⟨client.2.toList, ["reader".toList]⟩)

theorem satisfiable_withReader (clients : List (String × String)) : Satisfiable (withReader clients) := by
  refine satisfiable_of_hub readerAddress fun address dependency depends => ?_
  obtain ⟨_, entry, configured, _, name, need, config, found, rfl⟩ :=
    (lifted_dependencyMap _).named address dependency depends
  rcases List.mem_cons.mp configured with rfl | client
  · cases need
  · obtain ⟨_, _, rfl⟩ := List.mem_map.mp client
    cases List.mem_singleton.mp need
    have first : (withReader clients).lookup "reader".toList = some reader.2 := List.lookup_cons_self
    cases first.symm.trans found
    rfl

def oneClient : Services := withReader [("authorizer", "localhost:8282")]

def twoClients : Services :=
  withReader [("authorizer", "localhost:8282"), ("console", "localhost:8080")]

/-- A reader with one client starts up on every schedule. -/
theorem oneClient_startsUp :
    Satisfiable oneClient ∧ ∀ events state,
      (startServers oneClient).run (graph oneClient).initial events = some state →
        StartsUp oneClient state := by
  refine ⟨satisfiable_withReader _, (startServers_startsUp_iff oneClient
    (satisfiable_withReader _)).mpr ?_⟩
  have alone : ∀ address ∈ servers oneClient, ∀ other ∈ servers oneClient,
      (graph oneClient).dependsOn address ≠ [] → (graph oneClient).dependsOn other ≠ [] →
        address = other := by decide +kernel
  intro address member other memberToo dependency depends dependsToo
  exact alone address member other memberToo (List.ne_nil_of_mem depends)
    (List.ne_nil_of_mem dependsToo)

/-- A reader with two clients: one of them never begins to serve. -/
theorem twoClients_hang :
    Satisfiable twoClients ∧ ∃ events state,
      (startServers twoClients).run (graph twoClients).initial events = some state ∧
        (startServers twoClients).Stuck state ∧
        ∃ address ∈ servers twoClients, ¬Serves state address := by
  have satisfiable : Satisfiable twoClients := satisfiable_withReader _
  obtain ⟨events, state, ran, stuck⟩ : ∃ events state,
      (startServers twoClients).run (graph twoClients).initial events = some state ∧
        (startServers twoClients).Stuck state :=
    Machine.exists_stuck handshakeRank_step (graph twoClients).initial
  refine ⟨satisfiable, events, state, ran, stuck, ?_⟩
  have shared : readerAddress ∈ (graph twoClients).dependsOn "localhost:8282".toList ∧
      readerAddress ∈ (graph twoClients).dependsOn "localhost:8080".toList := by decide +kernel
  have notBoth := (accounted_of_run satisfiable.acyclic.nodup ran).not_both_begun
    (by decide) shared.1 shared.2
  by_contra all
  push Not at all
  exact notBoth ⟨all _ (by decide), all _ (by decide)⟩

end Examples

end Eamerald.Service
