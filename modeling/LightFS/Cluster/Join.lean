import LightFS.Cluster.Discovery

/-!
# Joining, with grants and puts that fail

`cluster_node_join` (`src/cluster/cluster_node.c`) asks etcd for a lease and puts three keys under
it: one for the node, and one for each of its services. If the first put fails the lease is revoked
and no node is returned. The results of the other two are not looked at, so a node can be returned
that cannot be discovered. A join is all or nothing if and only if both of them succeed when it
comes to them, and when it does not, no key of the node was there before
(`join_all_or_nothing_iff`).

What is assumed of the client is `EtcdClient.Leases`: a grant or a put that fails changes no key, a
revocation does not fail (`etcd_lease_revoke` fails only without a client), and a lease that is
granted is a new one.

## Main definitions

* `EtcdClient.Leases`, `joinKeys`, `servicePuts`.
* `JoinsAllOrNothing`.
-/

namespace LightFS.Cluster

open Library

variable {σ : Type*} {client : EtcdClient σ} {leaseOf : σ → CString → Option UInt64}

/-- A client whose grants and puts may fail: `leaseOf s key` is the live lease under which a key is
present in the state `s`. A revocation always takes the keys of its lease away. -/
structure EtcdClient.Leases (client : EtcdClient σ) (leaseOf : σ → CString → Option UInt64) :
    Prop where
  leaseOf_grant : ∀ s ttl, leaseOf (client.leaseGrant s ttl).1 = leaseOf s
  grant_fresh : ∀ s ttl lease key, (client.leaseGrant s ttl).2 = some lease →
    leaseOf s key ≠ some lease.id
  leaseOf_put : ∀ s key value lease, leaseOf (client.keyValuePut s key value lease).1 =
    if (client.keyValuePut s key value lease).2 then Function.update (leaseOf s) key (some lease)
    else leaseOf s
  leaseOf_revoke : ∀ s lease key, leaseOf (client.leaseRevoke s lease).1 key =
    if leaseOf s key = some lease then none else leaseOf s key

/-- The keys of a node: its topology key and its discovery keys. -/
def joinKeys (config : ClusterNodeConfig) : List CString :=
  [nodeKey config, serviceKey config .gateway, serviceKey config .metaServer]

/-- The outcomes of the puts of the discovery keys, if a join comes to them. -/
def servicePuts (client : EtcdClient σ) (s : σ) (config : ClusterNodeConfig) :
    Option (Bool × Bool) :=
  match client.leaseGrant s nodeLeaseTtl with
  | (_, none) => none
  | (s, some lease) =>
    match client.keyValuePut s (nodeKey config) (nodeJson config) lease.id with
    | (_, false) => none
    | (s, true) =>
      let (s, gateway) := client.keyValuePut s (serviceKey config .gateway)
        (serviceValue config .gateway) lease.id
      some (gateway, (client.keyValuePut s (serviceKey config .metaServer)
        (serviceValue config .metaServer) lease.id).2)

/-- A join returns a node whose keys are all present under its lease, or no node, and then none of
the keys is present under a live lease. -/
def JoinsAllOrNothing (client : EtcdClient σ) (leaseOf : σ → CString → Option UInt64) (s : σ)
    (config : ClusterNodeConfig) : Prop :=
  match clusterNodeJoin client s config with
  | (s', some node) => ∀ key ∈ joinKeys config, leaseOf s' key = some node.lease.id
  | (s', none) => ∀ key ∈ joinKeys config, leaseOf s' key = none

/-! ### Keys -/

theorem nodeKey_ne_serviceKey (config : ClusterNodeConfig) (service : Service) :
    nodeKey config ≠ serviceKey config service := by
  intro h
  refine not_directory_prefix_nodeKey config service ?_
  rw [h]
  exact (directory_prefix_serviceKey_iff config service service).mpr rfl

theorem serviceKey_inj {config : ClusterNodeConfig} {service service' : Service}
    (h : serviceKey config service = serviceKey config service') : service = service' := by
  refine (directory_prefix_serviceKey_iff config service service').mp ?_
  rw [← h]
  exact (directory_prefix_serviceKey_iff config service service).mpr rfl

/-! ### The calls of a join -/

variable (hclient : client.Leases leaseOf) {s : σ} {config : ClusterNodeConfig} {lease : EtcdLease}

include hclient

/-- A join that gives up leaves the keys as they were. -/
theorem leaseOf_revoke_of_put_false {s₁ s₂ : σ}
    (hgrant : client.leaseGrant s nodeLeaseTtl = (s₁, some lease))
    (hput : client.keyValuePut s₁ (nodeKey config) (nodeJson config) lease.id = (s₂, false)) :
    leaseOf (client.leaseRevoke s₂ lease.id).1 = leaseOf s := by
  have hs₁ : leaseOf s₁ = leaseOf s := by
    rw [← hclient.leaseOf_grant s nodeLeaseTtl, hgrant]
  have hs₂ : leaseOf s₂ = leaseOf s₁ := by
    have hput' := hclient.leaseOf_put s₁ (nodeKey config) (nodeJson config) lease.id
    rwa [hput, if_neg Bool.false_ne_true] at hput'
  funext key
  rw [hclient.leaseOf_revoke, hs₂, hs₁, if_neg]
  refine hclient.grant_fresh s nodeLeaseTtl lease key ?_
  rw [hgrant]

/-- The keys under a lease after a put under it. -/
theorem leaseOf_put_iff {s s' : σ} {key key' value : CString} {id : UInt64} {success : Bool}
    (hput : client.keyValuePut s key value id = (s', success)) :
    leaseOf s' key' = some id ↔ success = true ∧ key' = key ∨ leaseOf s key' = some id := by
  have hstate := hclient.leaseOf_put s key value id
  rw [hput] at hstate
  rw [hstate]
  cases success
  · simp
  · rw [if_pos rfl, Function.update_apply]
    by_cases hkey : key' = key
    · simp [hkey]
    · simp [hkey]

/-- A join that goes on has the keys under its lease whose puts succeeded. -/
theorem leaseOf_of_put_true {s₁ s₂ s₃ s₄ : σ} {gateway metaServer : Bool}
    (hgrant : client.leaseGrant s nodeLeaseTtl = (s₁, some lease))
    (hnode : client.keyValuePut s₁ (nodeKey config) (nodeJson config) lease.id = (s₂, true))
    (hgateway : client.keyValuePut s₂ (serviceKey config .gateway) (serviceValue config .gateway)
      lease.id = (s₃, gateway))
    (hmeta : client.keyValuePut s₃ (serviceKey config .metaServer)
      (serviceValue config .metaServer) lease.id = (s₄, metaServer)) :
    (∀ key ∈ joinKeys config, leaseOf s₄ key = some lease.id) ↔
      gateway = true ∧ metaServer = true := by
  have hs₁ : ∀ key, leaseOf s₁ key ≠ some lease.id := fun key => by
    have hstate := hclient.leaseOf_grant s nodeLeaseTtl
    rw [hgrant] at hstate
    rw [hstate]
    exact hclient.grant_fresh s nodeLeaseTtl lease key (by rw [hgrant])
  have hs₄ : ∀ key, leaseOf s₄ key = some lease.id ↔
      metaServer = true ∧ key = serviceKey config .metaServer ∨
      gateway = true ∧ key = serviceKey config .gateway ∨ key = nodeKey config := fun key => by
    rw [leaseOf_put_iff hclient hmeta, leaseOf_put_iff hclient hgateway,
      leaseOf_put_iff hclient hnode]
    simp only [hs₁ key, or_false, true_and]
  have hdiffer : serviceKey config .gateway ≠ serviceKey config .metaServer := fun h =>
    Service.noConfusion (serviceKey_inj h)
  simp only [joinKeys, List.forall_mem_cons, hs₄, (nodeKey_ne_serviceKey config _).symm,
    nodeKey_ne_serviceKey config, hdiffer, hdiffer.symm]
  simp

/-- **When a join is all or nothing.** For every configuration, every state of etcd and every
outcome of the calls: when both puts of discovery keys succeed, if the join comes to them, and when
no key of the node was present under a live lease before, if it does not. -/
theorem join_all_or_nothing_iff (s : σ) (config : ClusterNodeConfig) :
    JoinsAllOrNothing client leaseOf s config ↔
      match servicePuts client s config with
      | some (gateway, metaServer) => gateway = true ∧ metaServer = true
      | none => ∀ key ∈ joinKeys config, leaseOf s key = none := by
  rw [JoinsAllOrNothing, clusterNodeJoin, servicePuts]
  rcases hgrant : client.leaseGrant s nodeLeaseTtl with ⟨s₁, _ | lease⟩
  · have hstate := hclient.leaseOf_grant s nodeLeaseTtl
    rw [hgrant] at hstate
    simp only [hstate]
  · dsimp only
    rcases hnode : client.keyValuePut s₁ (nodeKey config) (nodeJson config) lease.id with
      ⟨s₂, _ | _⟩
    · simp only [leaseOf_revoke_of_put_false hclient hgrant hnode]
    · exact leaseOf_of_put_true hclient hgrant hnode rfl rfl

omit hclient

/-- An etcd that is told which calls succeed. The leases are numbered. -/
structure ScriptedEtcd where
  outcomes : List Bool
  granted : ℕ
  leaseOf : CString → Option UInt64
  lt_granted : ∀ key id, leaseOf key = some id → id.toNat < granted

namespace ScriptedEtcd

/-- Whether the next call succeeds. -/
def succeeds (s : ScriptedEtcd) : Bool := s.outcomes.headD true

/-- A lease is granted, as long as there are numbers. -/
def grant (s : ScriptedEtcd) (ttl : UInt64) : ScriptedEtcd × Option EtcdLease :=
  if s.succeeds ∧ s.granted < 2 ^ 64 then
    ({ s with
        outcomes := s.outcomes.tail
        granted := s.granted + 1
        lt_granted := fun key id h => Nat.lt_succ_of_lt (s.lt_granted key id h) },
      some ⟨UInt64.ofNat s.granted, ttl⟩)
  else ({ s with outcomes := s.outcomes.tail }, none)

/-- A key is put under a lease that was granted. -/
def put (s : ScriptedEtcd) (key : CString) (lease : UInt64) : ScriptedEtcd × Bool :=
  if h : s.succeeds ∧ lease.toNat < s.granted then
    ({ s with
        outcomes := s.outcomes.tail
        leaseOf := Function.update s.leaseOf key (some lease)
        lt_granted := fun key' id hid => by
          rw [Function.update_apply] at hid
          split_ifs at hid
          · exact Option.some.inj hid ▸ h.2
          · exact s.lt_granted key' id hid },
      true)
  else ({ s with outcomes := s.outcomes.tail }, false)

theorem leaseOf_put (s : ScriptedEtcd) (key : CString) (lease : UInt64) :
    (s.put key lease).1.leaseOf =
      if (s.put key lease).2 then Function.update s.leaseOf key (some lease) else s.leaseOf := by
  by_cases h : s.succeeds ∧ lease.toNat < s.granted
  · simp [put, h]
  · simp [put, h]

/-- The keys under a lease are gone with it. -/
def revoke (s : ScriptedEtcd) (lease : UInt64) : ScriptedEtcd :=
  { s with
    leaseOf := fun key => if s.leaseOf key = some lease then none else s.leaseOf key
    lt_granted := fun key id h => by
      split_ifs at h
      exact s.lt_granted key id h }

end ScriptedEtcd

/-- The client of such a server. No listing is made. -/
def scriptedClient : EtcdClient ScriptedEtcd where
  leaseGrant := ScriptedEtcd.grant
  leaseRevoke s lease := (s.revoke lease, true)
  keyValuePut s key _ lease := s.put key lease
  keyValueList _ _ := none

theorem scriptedClient_leases : scriptedClient.Leases ScriptedEtcd.leaseOf where
  leaseOf_grant s ttl := by
    simp only [scriptedClient, ScriptedEtcd.grant]
    split_ifs <;> rfl
  grant_fresh s ttl lease key hgrant hkey := by
    simp only [scriptedClient, ScriptedEtcd.grant] at hgrant
    split_ifs at hgrant with h
    obtain rfl := Option.some.inj hgrant
    have hlt := s.lt_granted key _ hkey
    have hid : (UInt64.ofNat s.granted).toNat = s.granted := UInt64.toNat_ofNat_of_lt' h.2
    dsimp only at hlt
    omega
  leaseOf_put s key _ lease := s.leaseOf_put key lease
  leaseOf_revoke _ _ _ := rfl

/-- An etcd without keys. -/
def emptyEtcd (outcomes : List Bool) : ScriptedEtcd where
  outcomes
  granted := 0
  leaseOf := fun _ => none
  lt_granted := fun _ _ h => absurd h (Option.some_ne_none _).symm

/-- A node. -/
def nodeOne : ClusterNodeConfig where
  nodeId := 1
  datacenterId := 1
  host := .ofString "10.0.0.1"
  gatewayPort := 8080
  metaPort := 9090
  accessPort := 80
  diskCount := 1
  totalDiskBytes := 4096

/-- All calls succeed. -/
theorem join_all_or_nothing_iff_all :
    JoinsAllOrNothing scriptedClient ScriptedEtcd.leaseOf (emptyEtcd [true, true, true, true])
      nodeOne :=
  (join_all_or_nothing_iff scriptedClient_leases (emptyEtcd [true, true, true, true])
    nodeOne).mpr ⟨rfl, rfl⟩

/-- The put of the gateway key fails: a node is returned, and no gateway can be found. -/
theorem join_without_gateway :
    ∃ s node, clusterNodeJoin scriptedClient (emptyEtcd [true, true, false, true]) nodeOne =
        (s, some node) ∧
      s.leaseOf (nodeKey nodeOne) = some node.lease.id ∧
      s.leaseOf (serviceKey nodeOne .gateway) = none := by
  have hmeta : serviceKey nodeOne .gateway ≠ serviceKey nodeOne .metaServer := fun h =>
    Service.noConfusion (serviceKey_inj h)
  obtain ⟨s, node, hjoin, hkeys, hlease⟩ : ∃ s node,
      clusterNodeJoin scriptedClient (emptyEtcd [true, true, false, true]) nodeOne =
        (s, some node) ∧
      s.leaseOf = Function.update (Function.update (fun _ => none) (nodeKey nodeOne) (some 0))
        (serviceKey nodeOne .metaServer) (some 0) ∧
      node.lease.id = 0 := ⟨_, _, rfl, rfl, rfl⟩
  refine ⟨s, node, hjoin, ?_, ?_⟩
  · rw [hkeys, hlease, Function.update_of_ne (nodeKey_ne_serviceKey nodeOne .metaServer),
      Function.update_self]
  · rw [hkeys, Function.update_of_ne hmeta,
      Function.update_of_ne (nodeKey_ne_serviceKey nodeOne .gateway).symm]

end LightFS.Cluster
