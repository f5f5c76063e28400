import LightFS.Cluster.Join
import LightFS.Library.Interleaving

/-!
# Nodes that come and go

A node joins the cluster with up to five calls on etcd, and leaves it with two
(`src/cluster/cluster_node.c`). Nodes are processes of their own, so the calls of different nodes
come in any order, any grant and any put can fail, and etcd can drop a lease at any time: the
heartbeat that should keep it alive does not reach etcd, since `etcd_lease_keepalive` does nothing
(`src/cluster/etcd_client.c`). The functions of a node are cut into their calls (`nodeStep`), and
without interference the steps are the functions (`exists_iterate_join`, `iterate_leave`).

In every interleaving each key in etcd is one that some node has put under its lease and not taken
back (`Keeps`): a node that has left, or whose join has failed, leaves nothing behind. Conversely,
when puts succeed, a node that has joined has all its keys as long as its lease is not dropped and
no other node has its id (`registrations`).

What is assumed of the client is `EtcdClient.Issues`: a grant or a put that fails changes no key, a
revocation takes the keys of its lease away (`etcd_lease_revoke` fails only without a client), and
no lease is granted twice.

## Main definitions

* `clusterNodeHeartbeat`, `clusterNodeLeave`.
* `NodePhase`, `nodeStep`, `MemberEvent`, `memberMachine`.
* `EtcdClient.Issues`, `NodeMove`, `Keeps`, `HasKeys`.

## Main results

* `nodeMove_nodeStep` — what one call of a node does to the keys.
* `registrations`.
-/

namespace LightFS.Cluster

open Library

/-! ### The code -/

section Code

variable {σ : Type*}

/-- `etcd_lease_keepalive`, which makes no call. -/
def etcdLeaseKeepalive (s : σ) (_lease : UInt64) : σ × Bool := (s, true)

/-- `cluster_node_heartbeat`. -/
def clusterNodeHeartbeat (s : σ) (node : ClusterNode) : σ × Bool :=
  etcdLeaseKeepalive s node.lease.id

/-- The `node_json` of `cluster_node_leave`. -/
def drainingJson (node : ClusterNode) : CString :=
  formatted 2048
    (literal "\x7b\"node_id\":" ++ decimal node.info.nodeId.toNat ++
      literal ",\"status\":\"draining\"\x7d")

/-- The node with the status `NODE_DRAINING`. -/
def ClusterNode.drain (node : ClusterNode) : ClusterNode :=
  { node with info := { node.info with status := .draining } }

/-- `cluster_node_leave`. The result of the put is not looked at. -/
def clusterNodeLeave (client : EtcdClient σ) (s : σ) (node : ClusterNode) :
    σ × ClusterNode × Bool :=
  let node := node.drain
  let s := (client.keyValuePut s node.nodeKey (drainingJson node) node.lease.id).1
  let (s, success) := client.leaseRevoke s node.lease.id
  (s, node, success)

/-- The node that `cluster_node_join` returns. -/
def joinedNode (config : ClusterNodeConfig) (lease : EtcdLease) : ClusterNode where
  info :=
    { nodeId := config.nodeId
      datacenterId := config.datacenterId
      host := .strncpy config.host
      gatewayPort := config.gatewayPort
      metaPort := config.metaPort
      accessPort := config.accessPort
      status := .active
      diskCount := config.diskCount
      totalDiskBytes := config.totalDiskBytes }
  lease := lease
  nodeKey := nodeKey config

/-- Where a node is between two calls on etcd: in `cluster_node_join`, outside, or in
`cluster_node_leave`. -/
inductive NodePhase where
  | start
  | putNode (lease : EtcdLease)
  | giveUp (lease : EtcdLease)
  | putGateway (lease : EtcdLease)
  | putMeta (lease : EtcdLease)
  | member (node : ClusterNode)
  | revoke (node : ClusterNode)
  | left (node : ClusterNode)
  | failed

/-- The next call of a node. A member leaves. -/
def nodeStep (client : EtcdClient σ) (config : ClusterNodeConfig) (phase : NodePhase) (s : σ) :
    NodePhase × σ :=
  match phase with
  | .start =>
    match client.leaseGrant s nodeLeaseTtl with
    | (s, none) => (.failed, s)
    | (s, some lease) => (.putNode lease, s)
  | .putNode lease =>
    match client.keyValuePut s (nodeKey config) (nodeJson config) lease.id with
    | (s, false) => (.giveUp lease, s)
    | (s, true) => (.putGateway lease, s)
  | .giveUp lease => (.failed, (client.leaseRevoke s lease.id).1)
  | .putGateway lease =>
    (.putMeta lease, (client.keyValuePut s (serviceKey config .gateway)
      (serviceValue config .gateway) lease.id).1)
  | .putMeta lease =>
    (.member (joinedNode config lease), (client.keyValuePut s (serviceKey config .metaServer)
      (serviceValue config .metaServer) lease.id).1)
  | .member node =>
    (.revoke node.drain,
      (client.keyValuePut s node.nodeKey (drainingJson node.drain) node.lease.id).1)
  | .revoke node => (.left node, (client.leaseRevoke s node.lease.id).1)
  | .left node => (.left node, s)
  | .failed => (.failed, s)

/-- Whether the put of the next call succeeds, if the call is a put. -/
def putSucceeds (client : EtcdClient σ) (config : ClusterNodeConfig) (phase : NodePhase) (s : σ) :
    Bool :=
  match phase with
  | .putNode lease => (client.keyValuePut s (nodeKey config) (nodeJson config) lease.id).2
  | .putGateway lease =>
    (client.keyValuePut s (serviceKey config .gateway) (serviceValue config .gateway) lease.id).2
  | .putMeta lease =>
    (client.keyValuePut s (serviceKey config .metaServer) (serviceValue config .metaServer)
      lease.id).2
  | .member node => (client.keyValuePut s node.nodeKey (drainingJson node.drain) node.lease.id).2
  | _ => true

/-- One call of a node that runs alone. -/
def stepAlone (client : EtcdClient σ) (config : ClusterNodeConfig) (p : NodePhase × σ) :
    NodePhase × σ :=
  nodeStep client config p.1 p.2

/-- The steps of a node that joins alone are `cluster_node_join`. -/
theorem exists_iterate_join (client : EtcdClient σ) (config : ClusterNodeConfig) (s : σ) :
    ∃ n, (stepAlone client config)^[n] (.start, s) =
      (((clusterNodeJoin client s config).2.map NodePhase.member).getD .failed,
        (clusterNodeJoin client s config).1) := by
  rw [clusterNodeJoin]
  rcases hgrant : client.leaseGrant s nodeLeaseTtl with ⟨s₁, _ | lease⟩
  · refine ⟨1, ?_⟩
    simp only [Function.iterate_succ_apply, Function.iterate_zero_apply, stepAlone, nodeStep,
      hgrant]
    rfl
  · dsimp only
    rcases hput : client.keyValuePut s₁ (nodeKey config) (nodeJson config) lease.id with
      ⟨s₂, _ | _⟩
    · refine ⟨3, ?_⟩
      simp only [Function.iterate_succ_apply, Function.iterate_zero_apply, stepAlone, nodeStep,
        hgrant, hput]
      rfl
    · refine ⟨4, ?_⟩
      simp only [Function.iterate_succ_apply, Function.iterate_zero_apply, stepAlone, nodeStep,
        hgrant, hput]
      rfl

/-- The two steps of a member that leaves alone are `cluster_node_leave`. -/
theorem iterate_leave (client : EtcdClient σ) (config : ClusterNodeConfig) (s : σ)
    (node : ClusterNode) :
    (stepAlone client config)^[2] (.member node, s) =
      (.left (clusterNodeLeave client s node).2.1, (clusterNodeLeave client s node).1) := rfl

end Code

/-! ### Runs -/

/-- What happens in a cluster of nodes `ι`. -/
inductive MemberEvent (ι : Type*) where
  /-- A node makes its next call on etcd. -/
  | call (i : ι)
  /-- A member calls `cluster_node_heartbeat`. -/
  | heartbeat (i : ι)
  /-- etcd drops the lease of a node. -/
  | expire (i : ι)

/-- The lease of a node. -/
def NodePhase.lease? : NodePhase → Option UInt64
  | start | failed => none
  | putNode lease | giveUp lease | putGateway lease | putMeta lease => some lease.id
  | member node | revoke node | left node => some node.lease.id

variable {σ ι : Type*} [DecidableEq ι]

/-- The nodes under any interleaving of their calls. -/
def memberMachine (client : EtcdClient σ) (config : ι → ClusterNodeConfig) :
    Machine (Interleaved ι NodePhase σ) (MemberEvent ι) Unit where
  step c
    | .call i => (interleave fun i => nodeStep client (config i)).step c i
    | .heartbeat i =>
      match c.threads i with
      | .member node => ({ c with shared := (clusterNodeHeartbeat c.shared node).1 }, ())
      | _ => (c, ())
    | .expire i =>
      match (c.threads i).lease? with
      | some id => ({ c with shared := (client.leaseRevoke c.shared id).1 }, ())
      | none => (c, ())

/-- No node has started. -/
def noNodes (s : σ) : Interleaved ι NodePhase σ := ⟨fun _ => .start, s⟩

/-! ### What a call does to the keys -/

/-- A client that grants no lease twice: `issued s` are the leases granted up to the state `s`. -/
structure EtcdClient.Issues (client : EtcdClient σ) (leaseOf : σ → CString → Option UInt64)
    (issued : σ → UInt64 → Prop) : Prop extends client.Leases leaseOf where
  issued_grant : ∀ s ttl id, issued (client.leaseGrant s ttl).1 id ↔
    issued s id ∨ (client.leaseGrant s ttl).2.map EtcdLease.id = some id
  grant_new : ∀ s ttl lease, (client.leaseGrant s ttl).2 = some lease → ¬ issued s lease.id
  issued_put : ∀ s key value lease, issued (client.keyValuePut s key value lease).1 = issued s
  issued_revoke : ∀ s lease, issued (client.leaseRevoke s lease).1 = issued s

/-- The keys that a node has put, if all its puts so far succeeded. -/
def NodePhase.keys (config : ClusterNodeConfig) : NodePhase → List CString
  | start | putNode _ | giveUp _ | left _ | failed => []
  | putGateway _ => [nodeKey config]
  | putMeta _ => [nodeKey config, serviceKey config .gateway]
  | member _ | revoke _ => joinKeys config

/-- A node that was returned by `cluster_node_join` has the key of its configuration. -/
def NodePhase.HasNodeKey (config : ClusterNodeConfig) : NodePhase → Prop
  | member node | revoke node => node.nodeKey = nodeKey config
  | _ => True

/-- What a call of a node does to the leases and the keys under them. -/
inductive NodeMove (config : ClusterNodeConfig) (issued issued' : UInt64 → Prop)
    (leases leases' : CString → Option UInt64) (success : Bool) (l l' : NodePhase) : Prop
  /-- A new lease is granted. -/
  | grant (id : UInt64) (hnew : ¬ issued id) (hissued : ∀ id', issued' id' ↔ issued id' ∨ id = id')
      (hleases : leases' = leases) (hl : l.lease? = none) (hl' : l'.lease? = some id)
      (hkeys : l.keys config = [] ∧ l'.keys config = [])
  /-- A key of the node is put under its lease, if the put succeeds. -/
  | put (id : UInt64) (key : CString) (hissued : issued' = issued)
      (hleases : leases' = if success then Function.update leases key (some id) else leases)
      (hl : l.lease? = some id) (hl' : l'.lease? = some id) (hmem : key ∈ joinKeys config)
      (hsuccess : success = true → ∀ k, k ∈ l'.keys config ↔ k ∈ l.keys config ∨ k = key)
      (hkeys : l.keys config ⊆ l'.keys config)
  /-- The lease is revoked. -/
  | revoke (id : UInt64) (hissued : issued' = issued)
      (hleases : leases' = fun key => if leases key = some id then none else leases key)
      (hl : l.lease? = some id) (hl' : l'.lease? = some id ∨ l'.lease? = none)
      (hkeys : l'.keys config = [])
  /-- Nothing changes. -/
  | idle (hissued : issued' = issued) (hleases : leases' = leases)
      (hl' : l'.lease? = l.lease?) (hkeys : l'.keys config = l.keys config)

section Moves

variable {client : EtcdClient σ} {leaseOf : σ → CString → Option UInt64}
  {issued : σ → UInt64 → Prop} (hclient : client.Issues leaseOf issued)

include hclient

/-- A put of a key, and the phases around it. -/
theorem nodeMove_put {config : ClusterNodeConfig} {l l' : NodePhase} {s : σ} {id : UInt64}
    {key value : CString} (hl : l.lease? = some id) (hl' : l'.lease? = some id)
    (hmem : key ∈ joinKeys config)
    (hsuccess : (client.keyValuePut s key value id).2 = true →
      ∀ k, k ∈ l'.keys config ↔ k ∈ l.keys config ∨ k = key)
    (hkeys : l.keys config ⊆ l'.keys config) :
    NodeMove config (issued s) (issued (client.keyValuePut s key value id).1) (leaseOf s)
      (leaseOf (client.keyValuePut s key value id).1) (client.keyValuePut s key value id).2 l l' :=
  .put id key (hclient.issued_put s key value id) (hclient.leaseOf_put s key value id) hl hl' hmem
    hsuccess hkeys

/-- A lease is revoked, and the phases around that. -/
theorem nodeMove_revoke {config : ClusterNodeConfig} {l l' : NodePhase} {s : σ} {id : UInt64}
    (hl : l.lease? = some id) (hl' : l'.lease? = some id ∨ l'.lease? = none)
    (hkeys : l'.keys config = []) :
    NodeMove config (issued s) (issued (client.leaseRevoke s id).1) (leaseOf s)
      (leaseOf (client.leaseRevoke s id).1) true l l' :=
  .revoke id (hclient.issued_revoke s id) (funext (hclient.leaseOf_revoke s id)) hl hl' hkeys

/-- **One call of a node.** -/
theorem nodeMove_nodeStep {config : ClusterNodeConfig} {l : NodePhase}
    (hnode : l.HasNodeKey config) (s : σ) :
    let r := nodeStep client config l s
    NodeMove config (issued s) (issued r.2) (leaseOf s) (leaseOf r.2)
        (putSucceeds client config l s) l r.1 ∧
      r.1.HasNodeKey config := by
  intro r
  cases l with
  | start =>
    have hleases := hclient.leaseOf_grant s nodeLeaseTtl
    have hissued := hclient.issued_grant s nodeLeaseTtl
    have hnew := hclient.grant_new s nodeLeaseTtl
    simp only [r, nodeStep]
    rcases hgrant : client.leaseGrant s nodeLeaseTtl with ⟨s₁, _ | lease⟩
    · rw [hgrant] at hleases hissued
      refine ⟨.idle (funext fun id => propext ?_) hleases rfl rfl, trivial⟩
      simpa using hissued id
    · rw [hgrant] at hleases hissued hnew
      refine ⟨.grant lease.id (hnew lease rfl) (fun id => ?_) hleases rfl rfl ⟨rfl, rfl⟩, trivial⟩
      simpa using hissued id
  | putNode lease =>
    simp only [r, nodeStep, putSucceeds]
    have hmove {l' : NodePhase} (hl' : l'.lease? = some lease.id)
        (hsuccess : (client.keyValuePut s (nodeKey config) (nodeJson config) lease.id).2 = true →
          l'.keys config = [nodeKey config]) :
        NodeMove config (issued s) _ (leaseOf s) _ _ (.putNode lease) l' :=
      nodeMove_put hclient rfl hl' List.mem_cons_self
        (fun h k => by rw [hsuccess h]; simp [NodePhase.keys]) (List.nil_subset _)
    rcases hput : client.keyValuePut s (nodeKey config) (nodeJson config) lease.id with
      ⟨s₁, _ | _⟩ <;> rw [hput] at hmove
    · exact ⟨hmove rfl fun h => absurd h Bool.false_ne_true, trivial⟩
    · exact ⟨hmove rfl fun _ => rfl, trivial⟩
  | giveUp lease => exact ⟨nodeMove_revoke hclient rfl (.inr rfl) rfl, trivial⟩
  | putGateway lease =>
    refine ⟨nodeMove_put hclient rfl rfl ?_ (fun _ k => ?_) ?_, trivial⟩
    · simp [joinKeys]
    · simp [r, nodeStep, NodePhase.keys]
    · simp [r, nodeStep, NodePhase.keys]
  | putMeta lease =>
    refine ⟨nodeMove_put hclient rfl rfl ?_ (fun _ k => ?_) ?_, rfl⟩
    · simp [joinKeys]
    · simp [r, nodeStep, NodePhase.keys, joinKeys, or_assoc]
    · simp [r, nodeStep, NodePhase.keys, joinKeys]
  | member node =>
    have hkey : node.nodeKey = nodeKey config := hnode
    refine ⟨nodeMove_put hclient rfl rfl ?_ (fun _ k => ?_) ?_, hnode⟩
    · simp [joinKeys, hkey]
    · simp only [r, nodeStep, NodePhase.keys, hkey, joinKeys, List.mem_cons]
      tauto
    · exact List.Subset.refl _
  | revoke node => exact ⟨nodeMove_revoke hclient rfl (.inl rfl) rfl, trivial⟩
  | left node => exact ⟨.idle rfl rfl rfl rfl, trivial⟩
  | failed => exact ⟨.idle rfl rfl rfl rfl, trivial⟩

end Moves

/-! ### What every run keeps -/

/-- Every node has its own lease, and every key in etcd is one that a node has put. -/
structure Keeps (leaseOf : σ → CString → Option UInt64) (issued : σ → UInt64 → Prop)
    (config : ι → ClusterNodeConfig) (c : Interleaved ι NodePhase σ) : Prop where
  hasNodeKey : ∀ i, (c.threads i).HasNodeKey (config i)
  issued_lease : ∀ i id, (c.threads i).lease? = some id → issued c.shared id
  lease_inj : ∀ i j id, (c.threads i).lease? = some id → (c.threads j).lease? = some id → i = j
  held : ∀ key id, leaseOf c.shared key = some id →
    ∃ i, (c.threads i).lease? = some id ∧ key ∈ (c.threads i).keys (config i)

/-- A node has its keys, under its lease. -/
def HasKeys (leaseOf : σ → CString → Option UInt64) (config : ι → ClusterNodeConfig) (i : ι)
    (c : Interleaved ι NodePhase σ) : Prop :=
  ∀ key ∈ (c.threads i).keys (config i), leaseOf c.shared key = (c.threads i).lease?

/-- An event at which a node keeps what it has: its lease is not dropped, and its puts succeed. -/
def Spares (client : EtcdClient σ) (config : ι → ClusterNodeConfig) (i : ι)
    (c : Interleaved ι NodePhase σ) (event : MemberEvent ι) : Prop :=
  event ≠ .expire i ∧
    (event = .call i → putSucceeds client (config i) (c.threads i) c.shared = true)

/-- A call changes one node. -/
def advance (c : Interleaved ι NodePhase σ) (i : ι) (l' : NodePhase) (s' : σ) :
    Interleaved ι NodePhase σ :=
  ⟨Function.update c.threads i l', s'⟩

theorem nodeKey_ne_serviceKey_other (config config' : ClusterNodeConfig) (service : Service) :
    nodeKey config ≠ serviceKey config' service := by
  intro h
  refine not_directory_prefix_nodeKey config service ?_
  rw [h]
  exact (directory_prefix_serviceKey_iff config' service service).mpr rfl

/-- Nodes with different ids have no key in common. -/
theorem joinKeys_disjoint {config config' : ClusterNodeConfig}
    (hid : config.nodeId ≠ config'.nodeId) : (joinKeys config).Disjoint (joinKeys config') := by
  have hnode : nodeKey config ≠ nodeKey config' := fun h => by
    have hbytes := congrArg CString.bytes h
    rw [bytes_nodeKey, bytes_nodeKey] at hbytes
    exact hid (UInt32.toNat_inj.mp (decimal_injective (List.append_cancel_left hbytes)))
  have hservice : ∀ service service', serviceKey config service ≠ serviceKey config' service' :=
      fun service service' h => by
    have hdirectory : service = service' := by
      refine (directory_prefix_serviceKey_iff config' service service').mp ?_
      rw [← h]
      exact (directory_prefix_serviceKey_iff config service service).mpr rfl
    subst hdirectory
    exact hid (nodeId_eq_of_serviceKey_eq h)
  simp only [joinKeys, List.disjoint_cons_left, List.disjoint_nil_left, List.mem_cons,
    List.not_mem_nil, hnode, hservice, nodeKey_ne_serviceKey_other config config',
    (nodeKey_ne_serviceKey_other config' config _).symm, or_self, not_false_eq_true, and_self]

theorem NodePhase.keys_subset (config : ClusterNodeConfig) (l : NodePhase) :
    l.keys config ⊆ joinKeys config := by
  cases l <;> simp [NodePhase.keys, joinKeys]

section Runs

variable {client : EtcdClient σ} {leaseOf : σ → CString → Option UInt64}
  {issued : σ → UInt64 → Prop} {config : ι → ClusterNodeConfig} {c : Interleaved ι NodePhase σ}

/-- What is to be shown of a call for the invariant. -/
theorem Keeps.advance (hc : Keeps leaseOf issued config c) {i : ι} {l' : NodePhase} {s' : σ}
    (hnode : l'.HasNodeKey (config i)) (hissued : ∀ id, issued c.shared id → issued s' id)
    (hlease : ∀ id, l'.lease? = some id →
      issued s' id ∧ ∀ j, j ≠ i → (c.threads j).lease? ≠ some id)
    (hheld : ∀ key id, leaseOf s' key = some id →
      l'.lease? = some id ∧ key ∈ l'.keys (config i) ∨
        leaseOf c.shared key = some id ∧ (c.threads i).lease? ≠ some id) :
    Keeps leaseOf issued config (advance c i l' s') where
  hasNodeKey j := by
    by_cases hj : j = i
    · subst hj
      simpa [Cluster.advance] using hnode
    · simpa [Cluster.advance, Function.update_of_ne hj] using hc.hasNodeKey j
  issued_lease j id h := by
    by_cases hj : j = i
    · subst hj
      exact (hlease id (by simpa [Cluster.advance] using h)).1
    · exact hissued id (hc.issued_lease j id (by
        simpa [Cluster.advance, Function.update_of_ne hj] using h))
  lease_inj j k id hj hk := by
    simp only [Cluster.advance, Function.update_apply] at hj hk
    split_ifs at hj hk with hji hki hki
    · rw [hji, hki]
    · exact absurd hk ((hlease id hj).2 k hki)
    · exact absurd hj ((hlease id hk).2 j hji)
    · exact hc.lease_inj j k id hj hk
  held key id h := by
    rcases hheld key id h with hown | ⟨hbefore, hother⟩
    · exact ⟨i, by simpa [Cluster.advance] using hown⟩
    · obtain ⟨j, hj, hkey⟩ := hc.held key id hbefore
      have hji : j ≠ i := fun hji => hother (hji ▸ hj)
      exact ⟨j, by simpa [Cluster.advance, Function.update_of_ne hji] using ⟨hj, hkey⟩⟩

omit [DecidableEq ι] in
/-- The lease of a node is not the lease of another. -/
theorem Keeps.lease_ne (hc : Keeps leaseOf issued config c) {i : ι} {id : UInt64}
    (hi : (c.threads i).lease? = some id) {j : ι} (hj : j ≠ i) : (c.threads j).lease? ≠ some id :=
  fun h => hj (hc.lease_inj j i id h hi)

omit [DecidableEq ι] in
/-- A key under the lease of a node is one of its keys. -/
theorem Keeps.mem_keys (hc : Keeps leaseOf issued config c) {i : ι} {id : UInt64} {key : CString}
    (hi : (c.threads i).lease? = some id) (hkey : leaseOf c.shared key = some id) :
    key ∈ (c.threads i).keys (config i) := by
  obtain ⟨j, hj, hmem⟩ := hc.held key id hkey
  obtain rfl := hc.lease_inj j i id hj hi
  exact hmem

/-- A call of a node keeps the invariant. -/
theorem Keeps.move (hc : Keeps leaseOf issued config c) {i : ι} {l' : NodePhase} {s' : σ}
    {success : Bool} (hnode : l'.HasNodeKey (config i))
    (hmove : NodeMove (config i) (issued c.shared) (issued s') (leaseOf c.shared) (leaseOf s')
      success (c.threads i) l') :
    Keeps leaseOf issued config (Cluster.advance c i l' s') := by
  rcases hmove with ⟨id, hnew, hissued, hleases, hl, hl', -⟩ |
    ⟨id, key, hissued, hleases, hl, hl', -, hsuccess, hkeys⟩ |
    ⟨id, hissued, hleases, hl, hl', hkeys⟩ | ⟨hissued, hleases, hl', hkeys⟩
  · refine hc.advance hnode (fun id' h => (hissued id').mpr (.inl h)) (fun id' h => ?_)
      (fun key id' h => .inr ⟨hleases ▸ h, by rw [hl]; exact (Option.some_ne_none id').symm⟩)
    obtain rfl := Option.some.inj (hl'.symm.trans h)
    exact ⟨(hissued id).mpr (.inr rfl), fun j _ hj => hnew (hc.issued_lease j id hj)⟩
  · refine hc.advance hnode (fun id' h => hissued ▸ h) (fun id' h => ?_) (fun key' id' h => ?_)
    · obtain rfl := Option.some.inj (hl'.symm.trans h)
      exact ⟨hissued ▸ hc.issued_lease i id hl, fun j => hc.lease_ne hl⟩
    · have hbefore : leaseOf c.shared key' = some id' → l'.lease? = some id' ∧
          key' ∈ l'.keys (config i) ∨ leaseOf c.shared key' = some id' ∧
            (c.threads i).lease? ≠ some id' := fun hkey => by
        by_cases hid : (c.threads i).lease? = some id'
        · exact .inl ⟨by rw [hl', ← hl, hid], hkeys (hc.mem_keys hid hkey)⟩
        · exact .inr ⟨hkey, hid⟩
      rw [hleases] at h
      split_ifs at h with hput
      · rw [Function.update_apply] at h
        split_ifs at h with hkey
        · exact .inl ⟨hl'.trans h, (hsuccess hput key').mpr (.inr hkey)⟩
        · exact hbefore h
      · exact hbefore h
  · refine hc.advance hnode (fun id' h => hissued ▸ h) (fun id' h => ?_) (fun key' id' h => .inr ?_)
    · rcases hl' with hl' | hl'
      · obtain rfl := Option.some.inj (hl'.symm.trans h)
        exact ⟨hissued ▸ hc.issued_lease i id hl, fun j => hc.lease_ne hl⟩
      · exact absurd (hl'.symm.trans h) (Option.some_ne_none id').symm
    · rw [hleases] at h
      dsimp only at h
      split_ifs at h with hkey
      exact ⟨h, fun hi => hkey (h.trans (hi.symm.trans hl))⟩
  · refine hc.advance hnode (fun id' h => hissued ▸ h) (fun id' h => ?_) (fun key' id' h => ?_)
    · rw [hl'] at h
      exact ⟨hissued ▸ hc.issued_lease i id' h, fun j => hc.lease_ne h⟩
    · rw [hleases] at h
      rw [hl', hkeys]
      by_cases hid : (c.threads i).lease? = some id'
      · exact .inl ⟨hid, hc.mem_keys hid h⟩
      · exact .inr ⟨h, hid⟩

/-- A call of a node whose put succeeds leaves it its keys. -/
theorem HasKeys.move_self {i : ι} (hkeys : HasKeys leaseOf config i c) {l' : NodePhase} {s' : σ}
    (hmove : NodeMove (config i) (issued c.shared) (issued s') (leaseOf c.shared) (leaseOf s')
      true (c.threads i) l') :
    HasKeys leaseOf config i (Cluster.advance c i l' s') := by
  intro key hkey
  simp only [Cluster.advance, Function.update_self] at hkey ⊢
  rcases hmove with ⟨id, -, -, -, -, -, -, hnone⟩ |
    ⟨id, key', -, hleases, hl, hl', -, hsuccess, -⟩ | ⟨id, -, -, -, -, hnone⟩ |
    ⟨-, hleases, hl', hsame⟩
  · rw [hnone] at hkey
    exact absurd hkey List.not_mem_nil
  · rw [hleases, if_pos rfl, Function.update_apply, hl', ← hl]
    split_ifs with hkey'
    · rfl
    · exact hkeys key (((hsuccess rfl key).mp hkey).resolve_right hkey')
  · rw [hnone] at hkey
    exact absurd hkey List.not_mem_nil
  · rw [hleases, hl']
    exact hkeys key (hsame ▸ hkey)

omit [DecidableEq ι] in
/-- A lease that another node has can be dropped. -/
theorem HasKeys.revoke {i j : ι} (hc : Keeps leaseOf issued config c)
    (hkeys : HasKeys leaseOf config i c) (hj : j ≠ i) {id : UInt64}
    (hid : (c.threads j).lease? = some id) {key : CString}
    (hkey : key ∈ (c.threads i).keys (config i)) :
    (if leaseOf c.shared key = some id then none else leaseOf c.shared key) =
      (c.threads i).lease? := by
  rw [hkeys key hkey, if_neg (hc.lease_ne hid hj.symm)]

/-- The calls of other nodes leave a node its keys, if no other node has its id. -/
theorem HasKeys.move_other {i j : ι} (hc : Keeps leaseOf issued config c)
    (hkeys : HasKeys leaseOf config i c) (hj : j ≠ i)
    (hunique : (config j).nodeId ≠ (config i).nodeId) {l' : NodePhase} {s' : σ} {success : Bool}
    (hmove : NodeMove (config j) (issued c.shared) (issued s') (leaseOf c.shared) (leaseOf s')
      success (c.threads j) l') :
    HasKeys leaseOf config i (Cluster.advance c j l' s') := by
  intro key hkey
  simp only [Cluster.advance, Function.update_of_ne hj.symm] at hkey ⊢
  rcases hmove with ⟨id, -, -, hleases, -⟩ | ⟨id, key', -, hleases, -, -, hmem, -⟩ |
    ⟨id, -, hleases, hl, -⟩ | ⟨-, hleases, -⟩
  · exact (congrFun hleases key).trans (hkeys key hkey)
  · have hne : key ≠ key' := fun h =>
      joinKeys_disjoint hunique hmem (h ▸ NodePhase.keys_subset _ _ hkey)
    rw [hleases]
    split_ifs
    · rw [Function.update_of_ne hne, hkeys key hkey]
    · exact hkeys key hkey
  · rw [hleases]
    exact hkeys.revoke hc hj hl hkey
  · exact (congrFun hleases key).trans (hkeys key hkey)

omit [DecidableEq ι] in
theorem keeps_noNodes (issued : σ → UInt64 → Prop) (config : ι → ClusterNodeConfig) {s : σ}
    (hs : ∀ key, leaseOf s key = none) : Keeps leaseOf issued config (noNodes s) where
  hasNodeKey _ := trivial
  issued_lease _ _ h := nomatch h
  lease_inj _ _ _ h := nomatch h
  held key id h := absurd ((hs key).symm.trans h) (Option.some_ne_none id).symm

variable (hclient : client.Issues leaseOf issued)

include hclient

/-- Every event keeps the invariant. -/
theorem Keeps.step (hc : Keeps leaseOf issued config c) (event : MemberEvent ι) :
    Keeps leaseOf issued config ((memberMachine client config).step c event).1 := by
  rcases event with i | i | i
  · obtain ⟨hmove, hnode⟩ := nodeMove_nodeStep hclient (hc.hasNodeKey i) c.shared
    exact hc.move hnode hmove
  · simp only [memberMachine]
    split <;> exact hc
  · simp only [memberMachine]
    split
    · rename_i id hid
      refine ⟨hc.hasNodeKey, fun j id' h => ?_, hc.lease_inj, fun key id' h => ?_⟩
      · rw [hclient.issued_revoke]
        exact hc.issued_lease j id' h
      · rw [hclient.leaseOf_revoke] at h
        split_ifs at h
        exact hc.held key id' h
    · exact hc

/-- Such an event leaves the node its keys. -/
theorem HasKeys.step {i : ι} (hunique : ∀ j, j ≠ i → (config j).nodeId ≠ (config i).nodeId)
    (hc : Keeps leaseOf issued config c) (hkeys : HasKeys leaseOf config i c)
    {event : MemberEvent ι} (hevent : Spares client config i c event) :
    HasKeys leaseOf config i ((memberMachine client config).step c event).1 := by
  rcases event with j | j | j
  · obtain ⟨hmove, -⟩ := nodeMove_nodeStep hclient (hc.hasNodeKey j) c.shared
    by_cases hj : j = i
    · subst hj
      rw [hevent.2 rfl] at hmove
      exact hkeys.move_self hmove
    · exact hkeys.move_other hc hj (hunique j hj) hmove
  · simp only [memberMachine]
    split <;> exact hkeys
  · have hj : j ≠ i := fun h => hevent.1 (congrArg _ h)
    simp only [memberMachine]
    split
    · rename_i id hid
      intro key hkey
      rw [hclient.leaseOf_revoke]
      exact hkeys.revoke hc hj hid hkey
    · exact hkeys

/-- **The registrations of a cluster.** From an etcd without keys, in every interleaving of the
calls of the nodes, whichever of the grants and puts fail and whenever leases are dropped: a key in
etcd is under the lease of a node that has put it and has neither left nor given up. And a node
whose puts succeed, whose lease is not dropped and whose id no other node has, has all the keys it
has put, under its lease, until it leaves. -/
theorem registrations {s : σ} (hs : ∀ key, leaseOf s key = none) (events : List (MemberEvent ι)) :
    let c := (memberMachine client config).run (noNodes s) events
    (∀ key id, leaseOf c.shared key = some id →
      ∃ i, (c.threads i).lease? = some id ∧ key ∈ (c.threads i).keys (config i)) ∧
    ∀ i, (∀ j, j ≠ i → (config j).nodeId ≠ (config i).nodeId) →
      (memberMachine client config).Meets (Spares client config i) (noNodes s) events →
      ∀ key ∈ (c.threads i).keys (config i), leaseOf c.shared key = (c.threads i).lease? := by
  have hstart := keeps_noNodes issued config hs
  refine ⟨(Machine.run_invariant (fun c event _ hc => hc.step hclient event) hstart).held,
    fun i hunique hmeets => ?_⟩
  refine (Machine.run_of_meets (P := Spares client config i) (I := fun c =>
    Keeps leaseOf issued config c ∧ HasKeys leaseOf config i c) ?_ hmeets ⟨hstart, ?_⟩).2
  · rintro c event hevent ⟨hc, hkeys⟩
    exact ⟨hc.step hclient event, hkeys.step hclient hunique hc hevent⟩
  · exact fun key hkey => absurd hkey List.not_mem_nil

omit hclient

theorem scriptedClient_issues :
    scriptedClient.Issues ScriptedEtcd.leaseOf fun s id => id.toNat < s.granted where
  toLeases := scriptedClient_leases
  issued_grant s ttl id := by
    simp only [scriptedClient, ScriptedEtcd.grant]
    split_ifs with h
    · have hid : (UInt64.ofNat s.granted).toNat = s.granted := UInt64.toNat_ofNat_of_lt' h.2
      simp only [Option.map_some, Option.some.injEq, ← UInt64.toNat_inj, hid]
      omega
    · simp
  grant_new s ttl lease hgrant := by
    simp only [scriptedClient, ScriptedEtcd.grant] at hgrant
    split_ifs at hgrant with h
    obtain rfl := Option.some.inj hgrant
    have hid : (UInt64.ofNat s.granted).toNat = s.granted := UInt64.toNat_ofNat_of_lt' h.2
    dsimp only
    omega
  issued_put s key value lease := by
    simp only [scriptedClient, ScriptedEtcd.put]
    split_ifs <;> rfl
  issued_revoke _ _ := rfl

/-- Two nodes with different ids. -/
def twoNodes : Bool → ClusterNodeConfig
  | false => nodeOne
  | true => { nodeOne with nodeId := 2 }

/-- The second node begins to join and the first one joins; then the lease of the second node is
dropped, and the first one has its keys. -/
theorem registrations_twoNodes :
    let events : List (MemberEvent Bool) :=
      [.call true, .call false, .call false, .call false, .call true, .call false, .expire true]
    let c := (memberMachine scriptedClient twoNodes).run (noNodes (emptyEtcd [])) events
    ∀ key ∈ joinKeys nodeOne, c.shared.leaseOf key = some 1 := by
  intro events c
  have hunique : ∀ j, j ≠ false → (twoNodes j).nodeId ≠ (twoNodes false).nodeId := by decide
  have hmeets : (memberMachine scriptedClient twoNodes).Meets
      (Spares scriptedClient twoNodes false) (noNodes (emptyEtcd [])) events :=
    ⟨⟨nofun, fun _ => rfl⟩, ⟨nofun, fun _ => rfl⟩, ⟨nofun, fun _ => rfl⟩, ⟨nofun, fun _ => rfl⟩,
      ⟨nofun, nofun⟩, ⟨nofun, fun _ => rfl⟩, ⟨nofun, nofun⟩, trivial⟩
  exact (registrations scriptedClient_issues (fun _ => rfl) events).2 false hunique hmeets

end Runs

end LightFS.Cluster
