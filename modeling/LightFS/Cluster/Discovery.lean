import Mathlib.Algebra.Order.BigOperators.Group.List
import Mathlib.Data.List.Dedup
import Mathlib.Data.List.Perm.Basic
import LightFS.Library.FormattedText
import LightFS.Library.Machine

/-!
# Nodes that join, and their discovery

A node that joins (`cluster_node_join` in `src/cluster/cluster_node.c`) registers in etcd, under a
key with its id, the text `host:port` of each of its services. `service_discovery_create`
(`src/cluster/cluster_discovery.c`) lists these keys and makes endpoints of them. It does not parse
what it reads: the id of an endpoint is its place in the listing, its host is the whole text, with
the port, and its port is a constant. So there is one endpoint for each node
(`exists_endpoints_eq`), but no endpoint has the host of its node, and the endpoints are those of
the nodes only when no node has joined (`discovery_iff`).

The calls of the client (`src/cluster/etcd_client.c`) are those of a server that is a parameter
(`EtcdServer`). What is assumed of it is `EtcdServer.Reliable`.

## Main definitions

* `EtcdServer`, `EtcdClient`, `EtcdServer.client`.
* `clusterNodeJoin`, `joinMachine`.
* `serviceDiscoveryCreate`, `serviceDiscoveryGetGateways`, `serviceDiscoveryGetMetaServers`.
* `EtcdServer.Reliable`, `Registered`.

## Main results

* `registered_run` — what is stored after any sequence of joins.
* `exists_endpoints_eq` — what discovery returns.
* `discovery_iff`.
-/

namespace LightFS.Cluster

open Library

/-! ### The etcd client -/

/-- `etcd_lease_t`. -/
structure EtcdLease where
  id : UInt64
  ttl : UInt64

/-- The calls of an etcd server with states `σ`. -/
structure EtcdServer (σ : Type*) where
  /-- Grant a lease with a time to live. -/
  leaseGrant : σ → UInt64 → σ × UInt64
  leaseRevoke : σ → UInt64 → σ
  /-- Put a value under a key and a lease; whether this succeeds. -/
  put : σ → CString → CString → UInt64 → σ × Bool
  /-- The value of a key, in an array of the given size. -/
  get : σ → CString → ℕ → Option CString
  /-- The keys with a beginning, at most the given number. -/
  list : σ → CString → ℕ → List CString

/-- The calls of `etcd_client.h` that the cluster makes. A result other than `0` is `none` or
`false`, and an entry of a list is `none` when its pointers are null. -/
structure EtcdClient (σ : Type*) where
  leaseGrant : σ → UInt64 → σ × Option EtcdLease
  leaseRevoke : σ → UInt64 → σ × Bool
  keyValuePut : σ → CString → CString → UInt64 → σ × Bool
  keyValueList : σ → CString → Option (List (Option (CString × CString)))

/-- `etcd_lease_grant`, `etcd_lease_revoke`, `etcd_key_value_put` and `etcd_key_value_list`. -/
def EtcdServer.client {σ : Type*} (E : EtcdServer σ) : EtcdClient σ where
  leaseGrant s ttl :=
    let (s, id) := E.leaseGrant s ttl
    (s, some ⟨id, ttl⟩)
  leaseRevoke s lease := (E.leaseRevoke s lease, true)
  keyValuePut := E.put
  keyValueList s start :=
    some ((E.list s start 256).map fun key => (E.get s key 4096).map fun value => (key, value))

/-! ### Nodes -/

/-- `CLUSTER_MAX_HOST_LENGTH`. -/
abbrev clusterMaxHostLength : ℕ := 256

/-- `NODE_LEASE_TTL`. -/
abbrev nodeLeaseTtl : UInt64 := 10

/-- `node_status_t`. -/
inductive NodeStatus where
  | active
  | draining
  | down

/-- `cluster_node_config_t`. -/
structure ClusterNodeConfig where
  nodeId : UInt32
  datacenterId : UInt32
  host : CString
  gatewayPort : UInt16
  metaPort : UInt16
  accessPort : UInt16
  diskCount : UInt64
  totalDiskBytes : UInt64

/-- `cluster_node_info_t`. -/
structure ClusterNodeInfo where
  nodeId : UInt32
  datacenterId : UInt32
  host : CharArray clusterMaxHostLength
  gatewayPort : UInt16
  metaPort : UInt16
  accessPort : UInt16
  status : NodeStatus
  diskCount : UInt64
  totalDiskBytes : UInt64

/-- `cluster_node_t`, without its client. -/
structure ClusterNode where
  info : ClusterNodeInfo
  lease : EtcdLease
  nodeKey : CString

/-- The services that are discovered. -/
inductive Service where
  | gateway
  | metaServer
deriving DecidableEq

/-- Where the keys of a service are. -/
def Service.directory : Service → List UInt8
  | gateway => literal "/lightfs/cluster/discovery" ++ literal "/gateways/"
  | metaServer => literal "/lightfs/cluster/discovery" ++ literal "/meta/"

/-- The port of a service on a node. -/
def Service.port (config : ClusterNodeConfig) : Service → UInt16
  | gateway => config.gatewayPort
  | metaServer => config.metaPort

section Texts

variable (config : ClusterNodeConfig) (service : Service)

/-- `node_key`. -/
def nodeKey : CString :=
  formatted 1024
    (literal "/lightfs/cluster/topology" ++ literal "/node/" ++ decimal config.nodeId.toNat)

/-- `node_json`. -/
def nodeJson : CString :=
  formatted 2048
    (literal "\x7b\"node_id\":" ++ decimal config.nodeId.toNat ++
      literal ",\"datacenter_id\":" ++ decimal config.datacenterId.toNat ++
      literal ",\"host\":\"" ++ config.host.bytes ++ literal "\"," ++
      literal "\"gateway_port\":" ++ decimal config.gatewayPort.toNat ++
      literal ",\"meta_port\":" ++ decimal config.metaPort.toNat ++
      literal ",\"access_port\":" ++ decimal config.accessPort.toNat ++ literal "," ++
      literal "\"disk_count\":" ++ decimal config.diskCount.toNat ++
      literal ",\"total_disk_bytes\":" ++ decimal config.totalDiskBytes.toNat ++
      literal ",\"status\":\"active\"\x7d")

/-- `service_key`. -/
def serviceKey : CString :=
  formatted 1024 (service.directory ++ literal "node_" ++ decimal config.nodeId.toNat)

/-- `service_value`. -/
def serviceValue : CString :=
  formatted 256 (config.host.bytes ++ literal ":" ++ decimal (service.port config).toNat)

end Texts

/-- `cluster_node_join`, with a client and a configuration that are not null. -/
def clusterNodeJoin {σ : Type*} (client : EtcdClient σ) (s : σ) (config : ClusterNodeConfig) :
    σ × Option ClusterNode :=
  match client.leaseGrant s nodeLeaseTtl with
  | (s, none) => (s, none)
  | (s, some lease) =>
    match client.keyValuePut s (nodeKey config) (nodeJson config) lease.id with
    | (s, false) => ((client.leaseRevoke s lease.id).1, none)
    | (s, true) =>
      -- the results of the other two calls are not looked at
      let s := (client.keyValuePut s (serviceKey config .gateway)
        (serviceValue config .gateway) lease.id).1
      let s := (client.keyValuePut s (serviceKey config .metaServer)
        (serviceValue config .metaServer) lease.id).1
      (s, some {
        info := {
          nodeId := config.nodeId
          datacenterId := config.datacenterId
          host := .strncpy config.host
          gatewayPort := config.gatewayPort
          metaPort := config.metaPort
          accessPort := config.accessPort
          status := .active
          diskCount := config.diskCount
          totalDiskBytes := config.totalDiskBytes }
        lease
        nodeKey := nodeKey config })

/-- Nodes that join one after the other. -/
def joinMachine {σ : Type*} (client : EtcdClient σ) :
    Machine σ ClusterNodeConfig (Option ClusterNode) where
  step := clusterNodeJoin client

/-! ### Discovery -/

/-- `service_endpoint_t`, without `service_name`, which no code sets or reads. -/
structure ServiceEndpoint where
  nodeId : UInt32
  host : CharArray clusterMaxHostLength
  port : UInt16
deriving DecidableEq

/-- `service_discovery_t`: the endpoints that are filled in. No code fills in storage engines or
shards. -/
structure ServiceDiscovery where
  gateways : List ServiceEndpoint
  metaServers : List ServiceEndpoint

/-- `MAX_ENDPOINTS`. -/
abbrev maxEndpoints : ℕ := 256

/-- The loop over the results of a listing, from the result `i` on, with the endpoints so far. -/
def fillEndpoints (port : UInt16) :
    ℕ → List ServiceEndpoint → List (Option (CString × CString)) → List ServiceEndpoint
  | _, endpoints, [] => endpoints
  | i, endpoints, result :: results =>
    if endpoints.length < maxEndpoints then
      match result with
      | some (_, value) =>
        fillEndpoints port (i + 1)
          (endpoints ++ [⟨UInt32.ofNat (i + 1), .strncpy value, port⟩]) results
      | none => fillEndpoints port (i + 1) endpoints results
    else endpoints

/-- The port that discovery gives to the endpoints of a service. -/
def Service.discoveredPort : Service → UInt16
  | gateway => 8080
  | metaServer => 9090

/-- List the keys of a service and make endpoints of them. -/
def discover {σ : Type*} (client : EtcdClient σ) (s : σ) (service : Service) :
    List ServiceEndpoint :=
  match client.keyValueList s (.ofMemory service.directory) with
  | some results => fillEndpoints service.discoveredPort 0 [] results
  | none => []

/-- `service_discovery_create`. -/
def serviceDiscoveryCreate {σ : Type*} (client : EtcdClient σ) (s : σ) : ServiceDiscovery where
  gateways := discover client s .gateway
  metaServers := discover client s .metaServer

/-- `service_discovery_get_gateways`, for an array of `capacity` endpoints. -/
def serviceDiscoveryGetGateways (discovery : ServiceDiscovery) (capacity : ℕ) :
    List ServiceEndpoint :=
  discovery.gateways.take
    (if discovery.gateways.length < capacity then discovery.gateways.length else capacity)

/-- `service_discovery_get_meta_servers`, for an array of `capacity` endpoints. -/
def serviceDiscoveryGetMetaServers (discovery : ServiceDiscovery) (capacity : ℕ) :
    List ServiceEndpoint :=
  discovery.metaServers.take
    (if discovery.metaServers.length < capacity then discovery.metaServers.length else capacity)

/-! ### What is assumed of etcd -/

/-- The server keeps the value that was put last under each key: `stored s` is what it keeps in the
state `s`. Puts succeed, and a listing has all keys with the given beginning, in any order, if the
array takes them. -/
structure EtcdServer.Reliable {σ : Type*} (E : EtcdServer σ)
    (stored : σ → CString → Option CString) : Prop where
  stored_leaseGrant : ∀ s ttl, stored (E.leaseGrant s ttl).1 = stored s
  put_succeeds : ∀ s key value lease, (E.put s key value lease).2 = true
  stored_put : ∀ s key value lease,
    stored (E.put s key value lease).1 = Function.update (stored s) key (some value)
  get_eq : ∀ s key value size, stored s key = some value → value.length < size →
    E.get s key size = some value
  list_perm : ∀ (s : σ) (start : CString) (keys : List CString) (size : ℕ), keys.Nodup →
    (∀ key, key ∈ keys ↔ (stored s key).isSome ∧ start.bytes <+: key.bytes) →
    keys.length ≤ size → (E.list s start size).Perm keys

/-! ### Keys and values -/

section Keys

variable (config : ClusterNodeConfig) (service : Service)

/-- The text of a key, which ends with an id, is never cut. -/
theorem bytes_formatted_id {start : List UInt8} (hlen : start.length ≤ 64) (hnul : 0 ∉ start)
    (id : UInt32) :
    (formatted 1024 (start ++ decimal id.toNat)).bytes = start ++ decimal id.toNat := by
  have hid : (decimal id.toNat).length ≤ 10 :=
    length_decimal_le (by decide) (id.toNat_lt.trans (by decide))
  refine bytes_formatted ?_ ?_
  · rw [List.length_append]
    omega
  · rw [List.mem_append, not_or]
    exact ⟨hnul, nul_notMem_decimal _⟩

theorem bytes_nodeKey : (nodeKey config).bytes =
    literal "/lightfs/cluster/topology" ++ literal "/node/" ++ decimal config.nodeId.toNat := by
  have hstart : (literal "/lightfs/cluster/topology" ++ literal "/node/").length ≤ 64 ∧
      0 ∉ literal "/lightfs/cluster/topology" ++ literal "/node/" := by
    decide +kernel
  exact bytes_formatted_id hstart.1 hstart.2 config.nodeId

/-- The directories: their lengths, and where they begin to differ. -/
theorem directory_spec (service service' : Service) :
    28 ≤ service.directory.length ∧ (service.directory ++ literal "node_").length ≤ 64 ∧
      0 ∉ service.directory ++ literal "node_" ∧
      (service.directory.take 28 = service'.directory.take 28 → service = service') ∧
      service.directory.take 18 ≠ (literal "/lightfs/cluster/topology").take 18 := by
  rcases service with _ | _ <;> rcases service' with _ | _ <;> decide +kernel

theorem bytes_ofMemory_directory : (CString.ofMemory service.directory).bytes =
    service.directory := by
  obtain ⟨-, -, hnul, -⟩ := directory_spec service service
  refine List.takeWhile_eq_self_iff.mpr fun b hb => decide_eq_true fun h0 => ?_
  exact hnul (List.mem_append_left _ (h0 ▸ hb))

theorem bytes_serviceKey : (serviceKey config service).bytes =
    service.directory ++ literal "node_" ++ decimal config.nodeId.toNat := by
  obtain ⟨-, hlen, hnul, -⟩ := directory_spec service service
  exact bytes_formatted_id hlen hnul config.nodeId

/-- A value is never cut. -/
theorem bytes_serviceValue (hhost : config.host.bytes.length ≤ 249) :
    (serviceValue config service).bytes =
      config.host.bytes ++ literal ":" ++ decimal (service.port config).toNat := by
  have hport : (decimal (service.port config).toNat).length ≤ 5 :=
    length_decimal_le (by decide) ((service.port config).toNat_lt.trans (by decide))
  refine bytes_formatted ?_ ?_
  · simp only [List.length_append, length_literal, String.reduceToList, List.length_cons,
      List.length_nil]
    omega
  · have hcolon : 0 ∉ literal ":" := by decide
    rw [List.mem_append, List.mem_append, not_or, not_or]
    exact ⟨⟨config.host.nul_free, hcolon⟩, nul_notMem_decimal _⟩

/-- Nodes with different ids have different keys. -/
theorem nodeId_eq_of_serviceKey_eq {config config' : ClusterNodeConfig} {service : Service}
    (h : serviceKey config service = serviceKey config' service) :
    config.nodeId = config'.nodeId := by
  have hbytes := congrArg CString.bytes h
  rw [bytes_serviceKey, bytes_serviceKey] at hbytes
  exact UInt32.toNat_inj.mp (decimal_injective (List.append_cancel_left hbytes))

/-- The keys in the directory of a service are those of the service. -/
theorem directory_prefix_serviceKey_iff (service' : Service) :
    service.directory <+: (serviceKey config service').bytes ↔ service = service' := by
  obtain ⟨hlen, -, -, hdiffer, -⟩ := directory_spec service service'
  obtain ⟨hlen', -⟩ := directory_spec service' service'
  rw [bytes_serviceKey, List.append_assoc]
  constructor
  · intro h
    by_contra hne
    exact not_prefix_append 28 hlen hlen' (fun htake => hne (hdiffer htake)) _ h
  · rintro rfl
    exact List.prefix_append _ _

theorem not_directory_prefix_nodeKey : ¬ service.directory <+: (nodeKey config).bytes := by
  obtain ⟨hlen, -, -, -, hdiffer⟩ := directory_spec service service
  rw [bytes_nodeKey, List.append_assoc]
  exact not_prefix_append 18 (by omega) (by decide +kernel) hdiffer _

end Keys

/-! ### Joining -/

/-- The nodes are registered, and nothing else is in the directories of the services. -/
def Registered (stored : CString → Option CString) (configs : List ClusterNodeConfig) : Prop :=
  ∀ service : Service,
    (∀ config ∈ configs,
      stored (serviceKey config service) = some (serviceValue config service)) ∧
    ∀ key, (stored key).isSome → service.directory <+: key.bytes →
      ∃ config ∈ configs, key = serviceKey config service

variable {σ : Type*} {E : EtcdServer σ} {stored : σ → CString → Option CString}

/-- What a join leaves in the server. -/
theorem stored_clusterNodeJoin (hE : E.Reliable stored) (s : σ) (config : ClusterNodeConfig) :
    stored (clusterNodeJoin E.client s config).1 =
      Function.update (Function.update (Function.update (stored s) (nodeKey config)
        (some (nodeJson config))) (serviceKey config .gateway)
          (some (serviceValue config .gateway))) (serviceKey config .metaServer)
            (some (serviceValue config .metaServer)) := by
  have hput := hE.put_succeeds (E.leaseGrant s nodeLeaseTtl).1 (nodeKey config) (nodeJson config)
    (E.leaseGrant s nodeLeaseTtl).2
  have hstored := hE.stored_put (E.leaseGrant s nodeLeaseTtl).1 (nodeKey config) (nodeJson config)
    (E.leaseGrant s nodeLeaseTtl).2
  simp only [clusterNodeJoin, EtcdServer.client]
  generalize E.put (E.leaseGrant s nodeLeaseTtl).1 (nodeKey config) (nodeJson config)
    (E.leaseGrant s nodeLeaseTtl).2 = first at hput hstored
  obtain ⟨s', success⟩ := first
  obtain rfl := hput
  dsimp only at hstored ⊢
  rw [hE.stored_put, hE.stored_put, hstored, hE.stored_leaseGrant]

/-- What a join leaves in the directory of a service. -/
theorem stored_clusterNodeJoin_apply (hE : E.Reliable stored) (s : σ)
    (config : ClusterNodeConfig) {service : Service} {key : CString}
    (hkey : service.directory <+: key.bytes) :
    stored (clusterNodeJoin E.client s config).1 key =
      if key = serviceKey config service then some (serviceValue config service)
      else stored s key := by
  have hnode : key ≠ nodeKey config := fun h =>
    not_directory_prefix_nodeKey config service (h ▸ hkey)
  have hother : ∀ service', key = serviceKey config service' → service = service' :=
    fun service' h => (directory_prefix_serviceKey_iff config service service').mp (h ▸ hkey)
  rw [stored_clusterNodeJoin hE]
  rcases service with _ | _
  · rw [Function.update_of_ne fun h => absurd (hother _ h) (by decide), Function.update_apply,
      Function.update_of_ne hnode]
  · rw [Function.update_apply, Function.update_of_ne fun h => absurd (hother _ h) (by decide),
      Function.update_of_ne hnode]

/-- A join registers the node. -/
theorem registered_clusterNodeJoin (hE : E.Reliable stored) {s : σ}
    {configs : List ClusterNodeConfig} (h : Registered (stored s) configs)
    {config : ClusterNodeConfig} (hid : config.nodeId ∉ configs.map (·.nodeId)) :
    Registered (stored (clusterNodeJoin E.client s config).1) (configs ++ [config]) := by
  intro service
  obtain ⟨hvalues, hkeys⟩ := h service
  have hdirectory : ∀ config, service.directory <+: (serviceKey config service).bytes :=
    fun config => (directory_prefix_serviceKey_iff config service service).mpr rfl
  constructor
  · intro config' hconfig'
    rw [stored_clusterNodeJoin_apply hE s config (hdirectory config')]
    rcases List.mem_append.mp hconfig' with hmem | hmem
    · have hne : serviceKey config' service ≠ serviceKey config service := fun heq =>
        hid (nodeId_eq_of_serviceKey_eq heq ▸ List.mem_map_of_mem hmem)
      rw [if_neg hne, hvalues config' hmem]
    · obtain rfl := List.mem_singleton.mp hmem
      exact if_pos rfl
  · intro key hstored hkey
    rw [stored_clusterNodeJoin_apply hE s config hkey] at hstored
    split_ifs at hstored with heq
    · exact ⟨config, List.mem_append_right _ (List.mem_singleton_self config), heq⟩
    · obtain ⟨config', hmem, rfl⟩ := hkeys key hstored hkey
      exact ⟨config', List.mem_append_left _ hmem, rfl⟩

/-- **What is stored after joins.** The induction is on the joins, for any list of nodes that have
joined before. -/
theorem registered_run (hE : E.Reliable stored) {s : σ} {earlier configs : List ClusterNodeConfig}
    (h : Registered (stored s) earlier)
    (hids : ((earlier ++ configs).map (·.nodeId)).Nodup) :
    Registered (stored ((joinMachine E.client).run s configs)) (earlier ++ configs) := by
  induction configs generalizing s earlier with
  | nil =>
    rw [List.append_nil]
    exact h
  | cons config configs ih =>
    rw [List.append_cons] at hids ⊢
    refine ih (registered_clusterNodeJoin hE h ?_) hids
    rw [List.map_append, List.map_append, List.append_assoc] at hids
    have hdisjoint := (List.nodup_append.mp hids).2.2
    intro hmem
    exact hdisjoint _ hmem _ (List.mem_append_left _ (List.mem_singleton_self _)) rfl

/-! ### Listing -/

/-- The loop makes one endpoint of each result, while there is room. -/
theorem fillEndpoints_map {ι : Type*} (port : UInt16) (key value : ι → CString) (l : List ι) (i : ℕ)
    (endpoints : List ServiceEndpoint) (hroom : endpoints.length + l.length ≤ maxEndpoints) :
    fillEndpoints port i endpoints (l.map fun x => some (key x, value x)) =
      endpoints ++ l.mapIdx fun k x =>
        ⟨UInt32.ofNat (i + k + 1), .strncpy (value x), port⟩ := by
  induction l generalizing i endpoints with
  | nil => exact (List.append_nil endpoints).symm
  | cons x l ih =>
    rw [List.length_cons] at hroom
    have hlt : endpoints.length < maxEndpoints := by omega
    rw [List.map_cons, fillEndpoints, if_pos hlt, ih (i + 1), List.mapIdx_cons, List.append_assoc,
      List.singleton_append]
    · refine congrArg (fun f => endpoints ++ _ :: List.mapIdx f l) ?_
      funext k y
      rw [Nat.add_right_comm i 1 k, Nat.add_assoc i k 1]
    · rw [List.length_append, List.length_singleton]
      omega

/-- The listing of a service is that of the nodes in some order. -/
theorem exists_keyValueList_eq (hE : E.Reliable stored) {s : σ} {configs : List ClusterNodeConfig}
    (h : Registered (stored s) configs) (hids : (configs.map (·.nodeId)).Nodup)
    (hlen : configs.length ≤ maxEndpoints) (service : Service) :
    ∃ order : List ClusterNodeConfig, order.Perm configs ∧
      E.client.keyValueList s (.ofMemory service.directory) = some (order.map fun config =>
        some (serviceKey config service, serviceValue config service)) := by
  obtain ⟨hvalues, hkeys⟩ := h service
  have hnodup : (configs.map (serviceKey · service)).Nodup := by
    refine List.pairwise_map.mpr ((List.pairwise_map.mp hids).imp fun hne heq => ?_)
    exact hne (nodeId_eq_of_serviceKey_eq heq)
  have hlist : (E.list s (.ofMemory service.directory) 256).Perm
      (configs.map (serviceKey · service)) := by
    refine hE.list_perm s _ _ _ hnodup (fun key => ?_) (by rwa [List.length_map])
    rw [bytes_ofMemory_directory, List.mem_map]
    constructor
    · rintro ⟨config, hconfig, rfl⟩
      rw [hvalues config hconfig]
      exact ⟨rfl, (directory_prefix_serviceKey_iff config service service).mpr rfl⟩
    · rintro ⟨hstored, hkey⟩
      obtain ⟨config, hconfig, rfl⟩ := hkeys key hstored hkey
      exact ⟨config, hconfig, rfl⟩
  obtain ⟨order, hlisted, hperm⟩ : Relation.Comp (· = List.map (serviceKey · service) ·)
      List.Perm (E.list s (.ofMemory service.directory) 256) configs := by
    rw [List.eq_map_comp_perm]
    exact hlist
  refine ⟨order, hperm, ?_⟩
  show some ((E.list s (.ofMemory service.directory) 256).map _) = _
  rw [hlisted, List.map_map]
  refine congrArg some (List.map_congr_left fun config hconfig => ?_)
  have hsize : (serviceValue config service).length < 4096 :=
    (length_formatted_le 256 _).trans_lt (by decide)
  show (E.get s (serviceKey config service) 4096).map _ = _
  rw [hE.get_eq s _ _ _ (hvalues config (hperm.mem_iff.mp hconfig)) hsize]
  rfl

/-- **What discovery returns.** There is one endpoint for each node, in the order of the listing:
its id is its place, its host is the whole value and its port is the same for all nodes. -/
theorem exists_endpoints_eq (hE : E.Reliable stored) {s : σ} {configs : List ClusterNodeConfig}
    (h : Registered (stored s) configs) (hids : (configs.map (·.nodeId)).Nodup)
    (hlen : configs.length ≤ maxEndpoints) (service : Service) :
    ∃ order : List ClusterNodeConfig, order.Perm configs ∧
      discover E.client s service = order.mapIdx fun i config =>
        ⟨UInt32.ofNat (i + 1), .strncpy (serviceValue config service), service.discoveredPort⟩ := by
  obtain ⟨order, hperm, hresults⟩ := exists_keyValueList_eq hE h hids hlen service
  refine ⟨order, hperm, ?_⟩
  rw [discover, hresults]
  refine (fillEndpoints_map _ _ _ order 0 [] ?_).trans ?_
  · rw [hperm.length_eq]
    exact (Nat.zero_add _).trans_le hlen
  · simp only [List.nil_append, Nat.zero_add]

/-! ### Endpoints and nodes -/

/-- One endpoint for each node, with its id, its host and its port. -/
def EndpointsOf (service : Service) (endpoints : List ServiceEndpoint)
    (configs : List ClusterNodeConfig) : Prop :=
  (endpoints.map fun endpoint => (endpoint.nodeId, endpoint.host.toCString, endpoint.port)).Perm
    (configs.map fun config => (config.nodeId, config.host, service.port config))

theorem length_lt_length_serviceValue {config : ClusterNodeConfig}
    (hhost : config.host.bytes.length ≤ 249) (service : Service) :
    config.host.bytes.length < (serviceValue config service).bytes.length := by
  rw [bytes_serviceValue config service hhost]
  simp only [List.length_append, length_literal, String.reduceToList, List.length_cons,
    List.length_nil]
  omega

/-- The host of an endpoint is the whole value, which fits it. -/
theorem bytes_strncpy_serviceValue (config : ClusterNodeConfig) (service : Service) :
    (CharArray.strncpy (serviceValue config service) : CharArray clusterMaxHostLength).bytes =
      (serviceValue config service).bytes :=
  CharArray.strncpy_bytes_of_le ((length_formatted_le 256 _).trans (by decide))

/-- What discovery returns are the endpoints of the nodes only if there are none: all together, the
hosts of the endpoints are longer than those of the nodes. -/
theorem endpointsOf_discover_iff (hE : E.Reliable stored) {s : σ}
    {configs : List ClusterNodeConfig} (h : Registered (stored s) configs)
    (hids : (configs.map (·.nodeId)).Nodup) (hlen : configs.length ≤ maxEndpoints)
    (hhost : ∀ config ∈ configs, config.host.bytes.length ≤ 249) (service : Service) :
    EndpointsOf service (discover E.client s service) configs ↔ configs = [] := by
  obtain ⟨order, hperm, heq⟩ := exists_endpoints_eq hE h hids hlen service
  constructor
  · intro hendpoints
    by_contra hne
    have hhosts : (discover E.client s service).map (·.host.bytes.length) =
        order.map fun config => (serviceValue config service).bytes.length := by
      rw [heq]
      refine List.ext_getElem (by simp) fun i hi hi' => ?_
      simp only [List.getElem_map, List.getElem_mapIdx, bytes_strncpy_serviceValue]
    have hsame : (order.map fun config => (serviceValue config service).bytes.length).sum =
        (configs.map (·.host.bytes.length)).sum := by
      have hlengths := (hendpoints.map fun triple : UInt32 × CString × UInt16 =>
        triple.2.1.bytes.length).sum_eq
      rw [List.map_map, List.map_map] at hlengths
      rw [← hhosts]
      exact hlengths
    have hlonger : (configs.map (·.host.bytes.length)).sum <
        (configs.map fun config => (serviceValue config service).bytes.length).sum :=
      List.sum_lt_sum_of_ne_nil hne _ _ fun config hconfig =>
        length_lt_length_serviceValue (hhost config hconfig) service
    rw [(hperm.map _).sum_eq] at hsame
    exact absurd hsame.symm hlonger.ne
  · rintro rfl
    obtain rfl := hperm.eq_nil
    rw [heq]
    exact List.Perm.refl _

/-- An array that is large enough takes all endpoints. -/
theorem take_all {l : List ServiceEndpoint} {capacity : ℕ} (h : l.length ≤ capacity) :
    l.take (if l.length < capacity then l.length else capacity) = l := by
  refine List.take_of_length_le ?_
  split_ifs
  · exact Nat.le_refl _
  · exact h

/-- A server that keeps what was put, the last value first. -/
def listServer : EtcdServer (List (CString × CString)) where
  leaseGrant s _ := (s, 1)
  leaseRevoke s _ := s
  put s key value _ := ((key, value) :: s, true)
  get s key size := (s.find? (·.1 = key)).map fun entry => formatted size entry.2.bytes
  list s start size :=
    (((s.map (·.1)).dedup).filter fun key => start.bytes.isPrefixOf key.bytes).take size

/-- This is a reliable server. -/
theorem listServer_reliable :
    listServer.Reliable fun s key => (s.find? (·.1 = key)).map (·.2) where
  stored_leaseGrant _ _ := rfl
  put_succeeds _ _ _ _ := rfl
  stored_put s key value lease := by
    funext key'
    show (((key, value) :: s).find? (·.1 = key')).map (·.2) = _
    rw [Function.update_apply, List.find?_cons]
    by_cases h : key = key'
    · rw [if_pos h.symm, decide_eq_true h]
      rfl
    · rw [if_neg fun h' => h h'.symm, decide_eq_false h]
  get_eq s key value size hvalue hsize := by
    obtain ⟨entry, hentry, rfl⟩ := Option.map_eq_some_iff.mp hvalue
    show (s.find? (·.1 = key)).map _ = _
    rw [hentry, Option.map_some, Option.some_inj]
    exact CString.ext (bytes_formatted hsize entry.2.nul_free)
  list_perm s start keys size hnodup hkeys hlen := by
    have hperm : (((s.map (·.1)).dedup).filter fun key =>
        start.bytes.isPrefixOf key.bytes).Perm keys := by
      refine (List.perm_ext_iff_of_nodup ((List.nodup_dedup _).filter _) hnodup).mpr fun key => ?_
      rw [hkeys, List.mem_filter, List.mem_dedup, List.isPrefixOf_iff_prefix, List.mem_map]
      refine and_congr_left fun _ => ?_
      rw [Option.isSome_map, List.find?_isSome]
      simp only [decide_eq_true_eq]
    show (List.take size _).Perm keys
    rwa [List.take_of_length_le (hperm.length_eq.trans_le hlen)]

/-- **When discovery returns what nodes registered.** For every etcd server on which puts succeed
and a listing has every stored key with its value, nodes with different ids that have joined one
after the other, at most 256 of them and with hosts of at most 249 bytes, and arrays that are large
enough: the gateways, and the meta servers, that discovery returns are one endpoint for each node
with its id, its host and its port, if and only if no node has joined. -/
theorem discovery_iff (hE : E.Reliable stored) (s : σ)
    (hempty : ∀ key, (stored s key).isSome → ¬ literal "/lightfs/cluster/discovery" <+: key.bytes)
    (configs : List ClusterNodeConfig) (hids : (configs.map (·.nodeId)).Nodup)
    (hlen : configs.length ≤ 256) (hhost : ∀ config ∈ configs, config.host.bytes.length ≤ 249)
    (capacity : ℕ) (hcapacity : configs.length ≤ capacity) :
    let discovery := serviceDiscoveryCreate E.client ((joinMachine E.client).run s configs)
    (EndpointsOf .gateway (serviceDiscoveryGetGateways discovery capacity) configs ↔
        configs = []) ∧
      (EndpointsOf .metaServer (serviceDiscoveryGetMetaServers discovery capacity) configs ↔
        configs = []) := by
  intro discovery
  have hstart : Registered (stored s) [] := by
    intro service
    refine ⟨fun config h => absurd h List.not_mem_nil, fun key hkey hdirectory => ?_⟩
    refine absurd (List.IsPrefix.trans ?_ hdirectory) (hempty key hkey)
    rcases service with _ | _ <;> exact List.prefix_append _ _
  have hregistered := registered_run hE hstart hids
  have hall : ∀ service, (discover E.client ((joinMachine E.client).run s configs)
      service).length ≤ capacity := by
    intro service
    obtain ⟨order, hperm, heq⟩ := exists_endpoints_eq hE hregistered hids hlen service
    rw [heq, List.length_mapIdx, hperm.length_eq]
    exact hcapacity
  have hgateways : serviceDiscoveryGetGateways discovery capacity = discovery.gateways :=
    take_all (hall .gateway)
  have hmetaServers : serviceDiscoveryGetMetaServers discovery capacity = discovery.metaServers :=
    take_all (hall .metaServer)
  have hiff := endpointsOf_discover_iff hE hregistered hids hlen hhost
  rw [hgateways, hmetaServers]
  exact ⟨hiff .gateway, hiff .metaServer⟩

/-- The node of `test_find_joined_gateway`. -/
def joinedGateway : ClusterNodeConfig where
  nodeId := 10
  datacenterId := 0
  host := .ofString "10.0.1.10"
  gatewayPort := 8080
  metaPort := 9090
  accessPort := 7070
  diskCount := 2
  totalDiskBytes := 2 * 1024 * 1024 * 1024 * 1024

/-- That node has joined, and discovery returns neither its gateway nor its meta server. -/
theorem discovery_iff_joinedGateway :
    let discovery := serviceDiscoveryCreate listServer.client
      ((joinMachine listServer.client).run [] [joinedGateway])
    ¬ EndpointsOf .gateway (serviceDiscoveryGetGateways discovery 10) [joinedGateway] ∧
      ¬ EndpointsOf .metaServer (serviceDiscoveryGetMetaServers discovery 10)
        [joinedGateway] := by
  obtain ⟨hgateways, hmetaServers⟩ := discovery_iff listServer_reliable []
    (fun _ h => absurd h Bool.false_ne_true) [joinedGateway] (by decide) (by decide)
    (by decide +kernel) 10 (by decide)
  exact ⟨fun h => List.cons_ne_nil _ _ (hgateways.mp h),
    fun h => List.cons_ne_nil _ _ (hmetaServers.mp h)⟩

/-- What discovery returns for that node instead: the id 1, and the port as a part of the host. -/
theorem discovery_joinedGateway :
    let gateways := serviceDiscoveryGetGateways (serviceDiscoveryCreate listServer.client
      ((joinMachine listServer.client).run [] [joinedGateway])) 10
    gateways = [⟨1, .strncpy (.ofString "10.0.1.10:8080"), 8080⟩] ∧
      ¬ EndpointsOf .gateway gateways [joinedGateway] := by
  have hgateways : serviceDiscoveryGetGateways (serviceDiscoveryCreate listServer.client
      ((joinMachine listServer.client).run [] [joinedGateway])) 10 =
        [⟨1, .strncpy (.ofString "10.0.1.10:8080"), 8080⟩] := by
    decide +kernel
  refine ⟨hgateways, fun hendpoints => ?_⟩
  rw [hgateways] at hendpoints
  have hsame := (List.cons.inj (List.perm_singleton.mp hendpoints)).1
  exact absurd (congrArg Prod.fst hsame) (by decide)

end LightFS.Cluster
