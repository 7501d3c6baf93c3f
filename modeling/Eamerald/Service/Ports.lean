import Eamerald.Foundation.Orders
import Eamerald.Service.Startup

/-! The servers of a configuration by listen address. Services with the same address are merged in
the order in which the map of services is iterated: the first one gives the server its
configuration, and takes over the gateway of a later one if it has none of its own. -/

set_option autoImplicit false

namespace Eamerald.Builder

structure TLSConfig where
  cert : GoString := []
  key : GoString := []
  ca : GoString := []
deriving DecidableEq, Repr

def TLSConfig.hasCert (certs : TLSConfig) : Bool := certs.cert ≠ [] ∧ certs.key ≠ []

def TLSConfig.hasCA (certs : TLSConfig) : Bool := certs.ca ≠ []

structure GRPC where
  fqdn : GoString := []
  listenAddress : GoString := []
  connectionTimeoutSeconds : UInt32 := 0
  certs : TLSConfig := {}
deriving DecidableEq, Repr

/-- Timeouts are in nanoseconds. -/
structure Gateway where
  fqdn : GoString := []
  listenAddress : GoString := []
  allowedOrigins : List GoString := []
  allowedHeaders : List GoString := []
  allowedMethods : List GoString := []
  certs : TLSConfig := {}
  http : Bool := false
  readTimeout : Int64 := 0
  readHeaderTimeout : Int64 := 0
  writeTimeout : Int64 := 0
  idleTimeout : Int64 := 0
deriving DecidableEq

structure API where
  needs : List GoString := []
  grpc : GRPC := {}
  gateway : Gateway := {}
deriving DecidableEq

/-- The configured services. A name stands for the pointer that the map holds under it. -/
abbrev Services := Std.ExtTreeMap GoString API

/-- The names come in this order when the services are iterated. -/
def Services.Iterates (services : Services) (order : List GoString) : Prop := order.Perm services.keys

def Services.config (services : Services) (name : GoString) : API := services[name]?.getD {}

section Lookup

variable (services : Services) {name : GoString} {config : API}

theorem Services.config_eq (found : services[name]? = some config) : services.config name = config := by
  rw [Services.config, found, Option.getD_some]

theorem Services.mem_keys_of_getElem? (found : services[name]? = some config) : name ∈ services.keys := by
  rw [Std.ExtTreeMap.mem_keys, ← Std.ExtTreeMap.isSome_getElem?_iff_mem, found]
  rfl

theorem Services.getElem?_of_mem_keys (member : name ∈ services.keys) :
    services[name]? = some (services.config name) := by
  rw [Std.ExtTreeMap.mem_keys, ← Std.ExtTreeMap.isSome_getElem?_iff_mem] at member
  obtain ⟨config, found⟩ := Option.isSome_iff_exists.mp member
  rw [services.config_eq found, found]

end Lookup

end Eamerald.Builder

namespace Eamerald.Service

open Foundation

variable {name : GoString}

section Model

/-- The services at an address, and the one whose configuration is used. -/
structure PortServices where
  registeredServices : List GoString
  api : GoString
deriving DecidableEq, Repr

/-- The ports so far. The configurations change, since those of the ports are those of the services. -/
structure Plan where
  api : Builder.Services
  portMap : Std.ExtTreeMap GoString PortServices := ∅

/-- The gateway of a configuration that has none is replaced. -/
def takeGateway (existing config : Builder.API) : Builder.API :=
  if existing.gateway.listenAddress = [] ∧ config.gateway.listenAddress ≠ [] then
    { existing with gateway := config.gateway }
  else existing

def Plan.add (plan : Plan) (key : GoString) (config : Builder.API) : Plan :=
  let address := config.grpc.listenAddress
  match plan.portMap[address]? with
  | some existing =>
      { api := plan.api.modify existing.api (takeGateway · config)
        portMap := plan.portMap.insert address
          { existing with registeredServices := existing.registeredServices ++ [key] } }
  | none => { plan with portMap := plan.portMap.insert address ⟨[key], key⟩ }

def Plan.visit (plan : Plan) (key : GoString) : Plan :=
  match plan.api[key]? with
  | some config => plan.add key config
  | none => plan

def mapToGRPCPorts (api : Builder.Services) (order : List GoString) : Plan :=
  order.foldl Plan.visit { api }

end Model

section Ports

variable (plan : Plan) (address : GoString)

def Plan.registered : List GoString := (plan.portMap[address]?.map PortServices.registeredServices).getD []

def Plan.config : Option Builder.API := do
  let port ← plan.portMap[address]?
  plan.api[port.api]?

def Plan.settings : Option (Builder.GRPC × Builder.Gateway) :=
  (plan.config address).map fun api => (api.grpc, api.gateway)

end Ports

section Merging

/-- The configuration that comes of those of an address, in the order in which they come. -/
def merged : List Builder.API → Option Builder.API
  | [] => none
  | first :: rest => some (rest.foldl takeGateway first)

theorem merged_concat (first : Builder.API) (rest : List Builder.API) (config : Builder.API) :
    merged (first :: rest ++ [config]) = (merged (first :: rest)).map (takeGateway · config) := by
  simp [merged]

def speaks (api : Builder.API) : Bool := api.gateway.listenAddress ≠ []

theorem grpc_foldl_takeGateway (rest : List Builder.API) (first : Builder.API) :
    (rest.foldl takeGateway first).grpc = first.grpc := by
  induction rest generalizing first with
  | nil => rfl
  | cons config rest ih =>
      rw [List.foldl_cons, ih, takeGateway]
      split <;> rfl

theorem gateway_foldl_takeGateway (rest : List Builder.API) (first : Builder.API) :
    (rest.foldl takeGateway first).gateway = (((first :: rest).find? speaks).getD first).gateway := by
  induction rest generalizing first with
  | nil =>
      cases here : speaks first <;> simp [here]
  | cons config rest ih =>
      rw [List.foldl_cons, ih]
      cases here : speaks first with
      | true =>
          have kept : takeGateway first config = first := by
            have present : first.gateway.listenAddress ≠ [] := by simpa [speaks] using here
            simp [takeGateway, present]
          simp [kept, here]
      | false =>
          have absent : first.gateway.listenAddress = [] := by simpa [speaks] using here
          cases next : speaks config with
          | true =>
              have present : config.gateway.listenAddress ≠ [] := by simpa [speaks] using next
              have taken : takeGateway first config = { first with gateway := config.gateway } := by
                simp [takeGateway, absent, present]
              have speaking : speaks { first with gateway := config.gateway } = true := next
              simp [taken, speaking, here, next]
          | false =>
              have none : config.gateway.listenAddress = [] := by simpa [speaks] using next
              have kept : takeGateway first config = first := by simp [takeGateway, none]
              simp [kept, here, next]

end Merging

section Groups

variable (services : Builder.Services) (address : GoString) {config : Builder.API}

def listensOn (name : GoString) : Bool :=
  (services[name]?.map (·.grpc.listenAddress)) = some address

def group (names : List GoString) : List GoString := names.filter (listensOn services address)

variable {services address}

theorem listensOn_iff : listensOn services address name = true ↔
      ∃ config, services[name]? = some config ∧ config.grpc.listenAddress = address := by
  simp [listensOn]

theorem listensOn_of_some (found : services[name]? = some config) :
    listensOn services address name = true ↔ config.grpc.listenAddress = address := by
  simp [listensOn, found]

theorem address_of_mem_group {names : List GoString}
    (member : name ∈ group services address names) : name ∈ names ∧ listensOn services address name = true :=
  List.mem_filter.mp member

theorem group_concat_same {key : GoString} (found : services[key]? = some config) (names : List GoString) :
    group services config.grpc.listenAddress (names ++ [key]) =
      group services config.grpc.listenAddress names ++ [key] := by
  simp [group, listensOn_of_some found]

theorem group_concat_other {key : GoString} (found : services[key]? = some config)
    (other : config.grpc.listenAddress ≠ address) (names : List GoString) :
    group services address (names ++ [key]) = group services address names := by
  have away : listensOn services address key = false := by simp [listensOn, found, other]
  simp [group, away]

end Groups

section Visits

variable {rest : List GoString}

/-- Each address has its services in their order, and the first has the merged configuration. -/
structure Visited (services : Builder.Services) (visited : List GoString) (plan : Plan) : Prop where
  untouched : ∀ key, key ∉ visited → plan.api[key]? = services[key]?
  ports : ∀ address, plan.portMap[address]? =
    (group services address visited).head?.map fun first => ⟨group services address visited, first⟩
  configured : ∀ address first, (group services address visited).head? = some first →
    plan.api[first]? = merged ((group services address visited).map services.config)

variable {services : Builder.Services} {visited : List GoString} {plan : Plan} {key : GoString}
  {config : Builder.API}

theorem visited_start : Visited services [] { api := services } where
  untouched _ _ := rfl
  ports _ := by simp [group]
  configured _ _ first := by cases first

section Step

variable (visits : Visited services visited plan) (fresh : key ∉ visited)
  (found : services[key]? = some config)

include visits found

theorem Visited.ports_insert {first : GoString}
    (joined : group services config.grpc.listenAddress (visited ++ [key]) = first :: rest) (address : GoString) :
    (plan.portMap.insert config.grpc.listenAddress ⟨first :: rest, first⟩)[address]? =
      (group services address (visited ++ [key])).head?.map fun first =>
        ⟨group services address (visited ++ [key]), first⟩ := by
  by_cases same : config.grpc.listenAddress = address
  · subst same
    simp [joined]
  · rw [group_concat_other found same, ← visits.ports]
    simp [Std.ExtTreeMap.getElem?_insert, Std.LawfulEqCmp.compare_eq_iff_eq, same]

theorem Visited.open (fresh : key ∉ visited) (unused : group services config.grpc.listenAddress visited = []) :
    Visited services (visited ++ [key])
      { plan with portMap := plan.portMap.insert config.grpc.listenAddress ⟨[key], key⟩ } where
  untouched other away := visits.untouched other fun member => away (List.mem_append_left _ member)
  ports := by
    apply visits.ports_insert found
    rw [group_concat_same found, unused, List.nil_append]
  configured address first head := by
    by_cases same : config.grpc.listenAddress = address
    · subst same
      rw [group_concat_same found, unused] at head ⊢
      cases head
      simp [visits.untouched key fresh, found, services.config_eq found, merged]
    · rw [group_concat_other found same] at head ⊢
      exact visits.configured address first head

theorem Visited.join {first : GoString}
    (used : group services config.grpc.listenAddress visited = first :: rest) :
    Visited services (visited ++ [key])
      { api := plan.api.modify first (takeGateway · config)
        portMap := plan.portMap.insert config.grpc.listenAddress ⟨first :: rest ++ [key], first⟩ } := by
  have member : first ∈ group services config.grpc.listenAddress visited := used ▸ List.mem_cons_self
  obtain ⟨seen, here⟩ := address_of_mem_group member
  have elsewhere {other : GoString} (apart : first ≠ other) :
      (plan.api.modify first (takeGateway · config))[other]? = plan.api[other]? := by
    simp [Std.ExtTreeMap.getElem?_modify, Std.LawfulEqCmp.compare_eq_iff_eq, apart]
  refine ⟨fun other away => ?_, fun address => ?_, fun address head opens => ?_⟩
  · have unseen : other ∉ visited := fun member => away (List.mem_append_left _ member)
    have apart : first ≠ other := fun same => unseen (same ▸ seen)
    rw [elsewhere apart]
    exact visits.untouched other unseen
  · apply visits.ports_insert found
    rw [group_concat_same found, used]
    rfl
  · by_cases same : config.grpc.listenAddress = address
    · subst same
      have before := visits.configured _ first (by rw [used, List.head?_cons])
      rw [group_concat_same found, used] at opens ⊢
      rw [used, List.map_cons] at before
      cases opens
      rw [Std.ExtTreeMap.getElem?_modify_self, before, List.map_append, List.map_singleton,
        services.config_eq found, List.map_cons, merged_concat]
    · rw [group_concat_other found same] at opens ⊢
      have there := (address_of_mem_group (List.mem_of_head? opens)).2
      rw [elsewhere ?_]
      · exact visits.configured address head opens
      · -- a service listens on one address only
        rintro rfl
        obtain ⟨one, isOne, atHere⟩ := listensOn_iff.mp here
        obtain ⟨two, isTwo, atThere⟩ := listensOn_iff.mp there
        cases isOne.symm.trans isTwo
        exact same (atHere.symm.trans atThere)

include fresh

theorem Visited.visit : Visited services (visited ++ [key]) (plan.visit key) := by
  have read : plan.api[key]? = some config := (visits.untouched key fresh).trans found
  have ports := visits.ports config.grpc.listenAddress
  simp only [Plan.visit, read, Plan.add]
  cases used : group services config.grpc.listenAddress visited with
  | nil =>
      rw [used] at ports
      simp only [ports, List.head?_nil, Option.map_none]
      exact visits.open found fresh used
  | cons first rest =>
      rw [used] at ports
      simp only [ports, List.head?_cons, Option.map_some]
      exact visits.join found used

end Step

theorem Visited.foldl (visits : Visited services visited plan)
    (distinct : (visited ++ rest).Nodup) (known : ∀ key ∈ rest, ∃ config, services[key]? = some config) :
    Visited services (visited ++ rest) (rest.foldl Plan.visit plan) := by
  induction rest generalizing visited plan with
  | nil => simpa using visits
  | cons key rest ih =>
      obtain ⟨⟨config, found⟩, later⟩ := List.forall_mem_cons.mp known
      have fresh : key ∉ visited := fun member =>
        (List.nodup_append.mp distinct).2.2 key member key List.mem_cons_self rfl
      have next := visits.visit fresh found
      rw [List.append_cons] at distinct ⊢
      exact ih next distinct later

theorem visited_mapToGRPCPorts {order : List GoString} (iterates : services.Iterates order) :
    Visited services order (mapToGRPCPorts services order) := by
  have distinct : order.Nodup := iterates.nodup_iff.mpr Std.ExtTreeMap.nodup_keys
  have known : ∀ key ∈ order, ∃ config, services[key]? = some config := by
    intro key member
    exact ⟨_, services.getElem?_of_mem_keys (iterates.mem_iff.mp member)⟩
  exact visited_start.foldl (by simpa using distinct) known

end Visits

section Plans

variable {services : Builder.Services} {order : List GoString} (iterates : services.Iterates order)
  (address : GoString)

include iterates

theorem registered_mapToGRPCPorts :
    (mapToGRPCPorts services order).registered address = group services address order := by
  rw [Plan.registered, (visited_mapToGRPCPorts iterates).ports]
  cases group services address order <;> rfl

theorem mem_portMap_iff :
    address ∈ (mapToGRPCPorts services order).portMap ↔ group services address order ≠ [] := by
  rw [← Std.ExtTreeMap.isSome_getElem?_iff_mem, (visited_mapToGRPCPorts iterates).ports]
  cases group services address order <;> simp

theorem config_mapToGRPCPorts : (mapToGRPCPorts services order).config address =
      merged ((group services address order).map services.config) := by
  have visits := visited_mapToGRPCPorts iterates
  rw [Plan.config, visits.ports]
  cases used : group services address order with
  | nil => rfl
  | cons first rest =>
      have configured := visits.configured address first (by rw [used, List.head?_cons])
      rw [used] at configured
      exact configured

/-- The address gets its gateway from this service, if it comes first of those. -/
def offers (services : Builder.Services) (address name : GoString) : Bool :=
  listensOn services address name &&
    (speaks (services.config name) ||
      !services.keys.any fun other => listensOn services address other && speaks (services.config other))

theorem grpc_mapToGRPCPorts : ((mapToGRPCPorts services order).settings address).map Prod.fst =
      (order.find? (listensOn services address)).map fun name => (services.config name).grpc := by
  rw [Plan.settings, config_mapToGRPCPorts iterates, ← List.head?_filter]
  change Option.map _ (Option.map _ (merged ((group services address order).map _))) =
    (group services address order).head?.map _
  cases group services address order with
  | nil => rfl
  | cons first rest => simp [merged, grpc_foldl_takeGateway]

theorem gateway_mapToGRPCPorts : ((mapToGRPCPorts services order).settings address).map Prod.snd =
      (order.find? (offers services address)).map fun name => (services.config name).gateway := by
  have merges : ((mapToGRPCPorts services order).settings address).map Prod.snd =
      (((group services address order).find? (speaks ∘ services.config)).or
        (group services address order).head?).map fun name => (services.config name).gateway := by
    rw [Plan.settings, config_mapToGRPCPorts iterates]
    cases group services address order with
    | nil => rfl
    | cons first rest =>
        simp only [List.map_cons, merged, Option.map_some, gateway_foldl_takeGateway]
        rw [← List.map_cons, List.find?_map]
        cases (first :: rest).find? (speaks ∘ services.config) <;> rfl
  have speaking : (group services address order).find? (speaks ∘ services.config) =
      order.find? fun name => listensOn services address name && speaks (services.config name) := by
    rw [group, List.find?_filter]
    refine congrArg (order.find? ·) (funext fun name => ?_)
    simp
  rw [merges, speaking, group, List.head?_filter]
  cases anyone : services.keys.any fun name =>
      listensOn services address name && speaks (services.config name) with
  | true =>
      have same : offers services address = fun name =>
          listensOn services address name && speaks (services.config name) := by
        funext name
        simp [offers, anyone]
      have present : (order.find? fun name =>
          listensOn services address name && speaks (services.config name)).isSome = true := by
        rw [find?_isSome_of_perm _ iterates, List.find?_isSome]
        exact List.any_eq_true.mp anyone
      obtain ⟨name, found⟩ := Option.isSome_iff_exists.mp present
      rw [same, found, Option.some_or]
  | false =>
      have same : offers services address = listensOn services address := by
        funext name
        simp [offers, anyone]
      have absent : (order.find? fun name =>
          listensOn services address name && speaks (services.config name)) = none := by
        rw [List.find?_eq_none]
        intro name member
        exact List.any_eq_false.mp anyone name (iterates.mem_iff.mp member)
      rw [same, absent, Option.none_or]

end Plans

section Orders

variable (services : Builder.Services) (address : GoString)

def Configured (config : Builder.API) : Prop :=
  ∃ name : GoString, services[name]? = some config ∧ config.grpc.listenAddress = address

/-- The configuration has a gateway, or none at the address has one. -/
def Offered (config : Builder.API) : Prop :=
  Configured services address config ∧
    (config.gateway.listenAddress ≠ [] ∨
      ∀ other, Configured services address other → other.gateway.listenAddress = [])

/-- The services at the address agree on the settings that they bring to it. -/
structure Uniform : Prop where
  grpc : ∀ config other, Configured services address config → Configured services address other →
    config.grpc = other.grpc
  gateway : ∀ config other, Offered services address config → Offered services address other →
    config.gateway = other.gateway

variable {services address}

theorem configured_of_listensOn (here : listensOn services address name = true) :
    Configured services address (services.config name) := by
  obtain ⟨config, found, same⟩ := listensOn_iff.mp here
  rw [services.config_eq found]
  exact ⟨name, found, same⟩

theorem exists_listensOn {config : Builder.API} (configured : Configured services address config) :
    ∃ name ∈ services.keys, listensOn services address name = true ∧ services.config name = config := by
  obtain ⟨name, found, same⟩ := configured
  exact ⟨name, services.mem_keys_of_getElem? found, (listensOn_of_some found).mpr same, services.config_eq found⟩

theorem offers_iff : offers services address name = true ↔
      listensOn services address name = true ∧ Offered services address (services.config name) := by
  have silent : (services.keys.any fun other =>
      listensOn services address other && speaks (services.config other)) = false ↔
        ∀ other, Configured services address other → other.gateway.listenAddress = [] := by
    rw [List.any_eq_false]
    constructor
    · intro quiet other configured
      obtain ⟨name, member, here, rfl⟩ := exists_listensOn configured
      simpa [here, speaks] using quiet name member
    · intro quiet name _ loud
      obtain ⟨here, speaking⟩ := Bool.and_eq_true_iff.mp loud
      simp [speaks, quiet _ (configured_of_listensOn here)] at speaking
  simp only [offers, Bool.and_eq_true, Bool.or_eq_true, Bool.not_eq_true', silent, Offered]
  constructor
  · rintro ⟨here, offered⟩
    exact ⟨here, configured_of_listensOn here, by simpa [speaks] using offered⟩
  · rintro ⟨here, _, offered⟩
    exact ⟨here, by simpa [speaks] using offered⟩

theorem uniform_iff : Uniform services address ↔
      (∀ name ∈ services.keys, ∀ other ∈ services.keys, listensOn services address name = true →
        listensOn services address other = true → (services.config name).grpc = (services.config other).grpc) ∧
      ∀ name ∈ services.keys, ∀ other ∈ services.keys, offers services address name = true →
        offers services address other = true →
          (services.config name).gateway = (services.config other).gateway := by
  constructor
  · intro uniform
    refine ⟨fun name _ other _ here there => ?_, fun name _ other _ here there => ?_⟩
    · exact uniform.grpc _ _ (configured_of_listensOn here) (configured_of_listensOn there)
    · exact uniform.gateway _ _ (offers_iff.mp here).2 (offers_iff.mp there).2
  · rintro ⟨grpc, gateway⟩
    refine ⟨fun config other configured configuredToo => ?_, fun config other offered offeredToo => ?_⟩
    · obtain ⟨name, member, here, rfl⟩ := exists_listensOn configured
      obtain ⟨next, memberToo, there, rfl⟩ := exists_listensOn configuredToo
      exact grpc name member next memberToo here there
    · obtain ⟨name, member, here, rfl⟩ := exists_listensOn offered.1
      obtain ⟨next, memberToo, there, rfl⟩ := exists_listensOn offeredToo.1
      exact gateway name member next memberToo (offers_iff.mpr ⟨here, offered⟩)
        (offers_iff.mpr ⟨there, offeredToo⟩)

theorem settings_eq_iff {plan other : Plan} : plan.settings address = other.settings address ↔
      (plan.settings address).map Prod.fst = (other.settings address).map Prod.fst ∧
        (plan.settings address).map Prod.snd = (other.settings address).map Prod.snd := by
  cases plan.settings address <;> cases other.settings address <;> simp [Prod.ext_iff]

/-- Any two orders of the services give the same addresses, each with the same services. They give the
addresses the same settings exactly if the services at each address agree on those they bring. -/
theorem ports_order_free_iff (services : Builder.Services) :
    (∀ order other, services.Iterates order → services.Iterates other → ∀ address,
      (address ∈ (mapToGRPCPorts services order).portMap ↔
        address ∈ (mapToGRPCPorts services other).portMap) ∧
      ((mapToGRPCPorts services order).registered address).Perm
        ((mapToGRPCPorts services other).registered address)) ∧
    ((∀ order other, services.Iterates order → services.Iterates other → ∀ address,
      (mapToGRPCPorts services order).settings address =
        (mapToGRPCPorts services other).settings address) ↔
      ∀ address, Uniform services address) := by
  constructor
  · intro order other iterates iteratesToo address
    have same : (group services address order).Perm (group services address other) :=
      (iterates.trans iteratesToo.symm).filter _
    rw [mem_portMap_iff iterates, mem_portMap_iff iteratesToo, registered_mapToGRPCPorts iterates,
      registered_mapToGRPCPorts iteratesToo]
    exact ⟨not_congr ⟨fun none => (none ▸ same).nil_eq.symm, fun none => (none ▸ same).eq_nil⟩, same⟩
  · simp only [uniform_iff, ← find?_order_free_iff]
    constructor
    · intro free address
      refine ⟨fun order other iterates iteratesToo => ?_, fun order other iterates iteratesToo => ?_⟩
      · rw [← grpc_mapToGRPCPorts iterates, ← grpc_mapToGRPCPorts iteratesToo,
          free order other iterates iteratesToo]
      · rw [← gateway_mapToGRPCPorts iterates, ← gateway_mapToGRPCPorts iteratesToo,
          free order other iterates iteratesToo]
    · intro free order other iterates iteratesToo address
      obtain ⟨grpc, gateway⟩ := free address
      rw [settings_eq_iff, grpc_mapToGRPCPorts iterates, grpc_mapToGRPCPorts iteratesToo,
        gateway_mapToGRPCPorts iterates, gateway_mapToGRPCPorts iteratesToo]
      exact ⟨grpc order other iterates iteratesToo, gateway order other iterates iteratesToo⟩

def portConfig (certs : Builder.TLSConfig) : Builder.API :=
  { grpc := { listenAddress := ":9292".toList, certs } }

def halfSecured : Builder.Services :=
  .ofList [("model".toList, portConfig {}),
    ("reader".toList, portConfig { cert := "grpc.crt".toList, key := "grpc.key".toList })]

/-- The order decides whether the port is served with a certificate. -/
theorem halfSecured_by_order :
    halfSecured.Iterates ["model".toList, "reader".toList] ∧
      halfSecured.Iterates ["reader".toList, "model".toList] ∧
      ((mapToGRPCPorts halfSecured ["model".toList, "reader".toList]).settings ":9292".toList).map
          (·.1.certs.hasCert) = some false ∧
      ((mapToGRPCPorts halfSecured ["reader".toList, "model".toList]).settings ":9292".toList).map
          (·.1.certs.hasCert) = some true := by
  refine ⟨?_, ?_, ?_, ?_⟩
  · exact (show ["model".toList, "reader".toList].Perm _ by decide +kernel)
  · exact (show ["reader".toList, "model".toList].Perm _ by decide +kernel)
  · decide +kernel
  · decide +kernel

end Orders

end Eamerald.Service
