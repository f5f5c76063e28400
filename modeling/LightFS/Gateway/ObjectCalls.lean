import LightFS.Gateway.ErasureCoding
import LightFS.Gateway.ManifestCache

/-!
# The object calls of the gateway

The object calls of the gateway (`src/gateway/gateway.c`) with the placement of fragments
(`gateway_placement.c`) and the fragment router (`gateway_fragment_router.c`). A put selects an
erasure coding policy, picks targets, encodes the object, sends the fragments, stores the manifest
in the cache and appends it to a batch for the metadata server, when the batch has room. The
handles of service discovery and etcd are passed on and never used, and are left out.

## Main definitions

* `PlacementEngine`, `placementRegisterNode`, `placementSelectTargets`.
* `Fragment`, `fragmentRouterSend`.
* `GatewayState`, `gatewayCreate`, `gatewayPutObject`, `gatewayGetObject`, `gatewayDeleteObject`.
* `GatewayOp`, `gatewayMachine`.

## Main results

* `preparePut_eq_some` — what a put that reaches the router has done before.
* `gatewayPutObject_of_accepted`, `gatewayPutObject_of_not_accepted`.
-/

namespace LightFS.Gateway

open Library Meta

/-! ### Placement -/

/-- `placement_target_t`. -/
structure PlacementTarget where
  nodeId : UInt32
  diskId : UInt32
  datacenterId : UInt32
  rackId : UInt32
  hostId : UInt32
  freeBytes : UInt64

/-- `PLACEMENT_MAX_NODES`. -/
abbrev placementMaxNodes : ℕ := 256

/-- `struct placement_engine`: an array of `PLACEMENT_MAX_NODES` nodes, the first of them
registered. -/
structure PlacementEngine where
  nodes : ℕ → PlacementTarget
  nodeCount : ℕ
  /-- The registered nodes fit the array. -/
  count_le : nodeCount ≤ placementMaxNodes

/-- `placement_engine_create`. -/
def placementEngineCreate : PlacementEngine := ⟨fun _ => ⟨0, 0, 0, 0, 0, 0⟩, 0, Nat.zero_le _⟩

/-- `placement_register_node`, returning the engine and the status. The disk of the slot is not
set. -/
def placementRegisterNode (engine : PlacementEngine) (nodeId datacenterId rackId hostId : UInt32)
    (freeBytes : UInt64) : PlacementEngine × ℤ :=
  if h : engine.nodeCount < placementMaxNodes then
    ({ nodes := Function.update engine.nodes engine.nodeCount
        { engine.nodes engine.nodeCount with
          nodeId := nodeId
          datacenterId := datacenterId
          rackId := rackId
          hostId := hostId
          freeBytes := freeBytes }
       nodeCount := engine.nodeCount + 1
       count_le := h }, 0)
  else (engine, -1)

/-- `placement_select_targets`: the targets written, `none` for `-1`. -/
def placementSelectTargets (engine : PlacementEngine)
    (dataFragmentCount parityFragmentCount maxTargets : ℕ) : Option (List PlacementTarget) :=
  let needed := dataFragmentCount + parityFragmentCount
  if maxTargets < needed ∨ engine.nodeCount < needed then none
  else some ((List.range needed).map fun i => engine.nodes (i % engine.nodeCount))

/-! ### The fragment router -/

/-- `fragment_t`. -/
structure Fragment where
  fragmentIndex : UInt32
  nodeId : UInt32
  diskId : UInt32
  location : BlobLocation
  data : List UInt8
  size : UInt32

/-- The loop of `fragment_router_send` from fragment `i` on: consecutive segment ids. -/
def assignLocations : ℕ → UInt64 → List Fragment → List Fragment × UInt64
  | _, segment, [] => ([], segment)
  | i, segment, fragment :: rest =>
    let sent := { fragment with
      location := ⟨segment, UInt64.ofNat (i * 4096), fragment.size, 0⟩ }
    let (rest, segment) := assignLocations (i + 1) (segment + 1) rest
    (sent :: rest, segment)

/-- `fragment_router_send`: the fragments with their locations, the next segment id and the
status. The number of retries is not used. -/
def fragmentRouterSend (fakeSegment : UInt64) (fragments : List Fragment) :
    List Fragment × UInt64 × ℤ :=
  if fragments = [] then (fragments, fakeSegment, -1)
  else
    let (sent, segment) := assignLocations 0 fakeSegment fragments
    (sent, segment, 0)

/-! ### The gateway -/

/-- The fields of `gateway_config_t` that the gateway uses. -/
structure GatewayConfig where
  datacenterId : UInt32
  defaultErasureCodingPolicy : ErasureCodingPolicy
  defaultReplicationFactor : ℤ
  manifestCacheSize : UInt32

/-- `manifest_batch_t`. -/
structure ManifestBatch where
  manifests : ℕ → ObjectManifest
  count : ℕ
  capacity : ℕ

/-- The manifests in the batch. -/
def ManifestBatch.contents (batch : ManifestBatch) : List ObjectManifest :=
  slots batch.manifests batch.count

/-- `struct gateway`, with the static segment counter of the router. -/
structure GatewayState where
  config : GatewayConfig
  placement : PlacementEngine
  fakeSegment : UInt64
  cache : ManifestCache
  erasureCodingEngines : ErasureCodingPolicy → Option ErasureCodingEngine
  metaBatch : ManifestBatch

/-- The size of the manifest cache: the configured one, or `GATEWAY_MANIFEST_CACHE_SIZE`. -/
def GatewayConfig.cacheSize (config : GatewayConfig) : ℕ :=
  if 0 < config.manifestCacheSize then config.manifestCacheSize.toNat else 10000

theorem GatewayConfig.one_le_cacheSize (config : GatewayConfig) : 1 ≤ config.cacheSize := by
  rw [GatewayConfig.cacheSize]
  split_ifs with hsize
  · exact UInt32.lt_iff_toNat_lt.mp hsize
  · decide

/-- `gateway_create`, its allocations succeeding. A cache size that is negative as an `int` asks
for more memory than there is, and gives `NULL`. -/
def gatewayCreate (config : GatewayConfig) (fakeSegment : UInt64) : Option GatewayState :=
  if config.cacheSize < 2 ^ 31 then
    some
      { config := config
        placement := placementEngineCreate
        fakeSegment := fakeSegment
        cache := manifestCacheCreate config.cacheSize
        erasureCodingEngines := fun
          | .replication2x => erasureCodingEngineCreate 1 1
          | .replication3x => erasureCodingEngineCreate 1 2
          | .sixPlusThree => erasureCodingEngineCreate 6 3
          | .tenPlusFour => erasureCodingEngineCreate 10 4
        metaBatch := { manifests := fun _ => .zero, count := 0, capacity := 64 } }
  else none

/-- `select_erasure_coding_policy`. -/
def selectErasureCodingPolicy (gateway : GatewayState) (objectSize : ℕ) : ErasureCodingPolicy :=
  if objectSize < 4 * 1024 * 1024 then
    if gateway.config.defaultReplicationFactor = 3 then .replication3x else .replication2x
  else if objectSize < 64 * 1024 * 1024 then .sixPlusThree
  else .tenPlusFour

/-- `gateway_put_request_t`: the data are the `size` bytes the pointer points to, `none` for a
null pointer, and the override is `none` when its flag is not set. -/
structure GatewayPutRequest where
  bucket : CharArray metaMaxBucketLength
  key : CharArray metaMaxKeyLength
  data : Option (List UInt8)
  erasureCodingPolicyOverride : Option ErasureCodingPolicy

/-- The policy of a put. -/
def putPolicy (gateway : GatewayState) (request : GatewayPutRequest) (data : List UInt8) :
    ErasureCodingPolicy :=
  request.erasureCodingPolicyOverride.getD (selectErasureCodingPolicy gateway data.length)

/-- The fragments a put sends; their locations are not set yet. -/
def putFragments (targets : List PlacementTarget) (encoded : EncodedFragments) : List Fragment :=
  (targets.zip (encoded.fragments.zip encoded.fragmentSizes)).mapIdx
    fun i (target, data, size) =>
      { fragmentIndex := UInt32.ofNat i
        nodeId := target.nodeId
        diskId := target.diskId
        location := ⟨0, 0, 0, 0⟩
        data := data
        size := UInt32.ofNat size }

/-- The manifest a put builds. Neither the fragment pointer nor the checksum is set. -/
def putManifest (gateway : GatewayState) (request : GatewayPutRequest) (data : List UInt8)
    (total : ℕ) : ObjectManifest :=
  { ObjectManifest.zero with
    bucket := .strncpy request.bucket.toCString
    key := .strncpy request.key.toCString
    size := UInt64.ofNat data.length
    fragmentCount := UInt32.ofNat total
    datacenterId := gateway.config.datacenterId
    fragments_length := by simp [ObjectManifest.zero] }

/-- The append to the batch, when it has room. -/
def ManifestBatch.add (batch : ManifestBatch) (manifest : ObjectManifest) : ManifestBatch :=
  if batch.count < batch.capacity then
    { batch with
      manifests := Function.update batch.manifests batch.count manifest
      count := batch.count + 1 }
  else batch

/-- The first half of `gateway_put_object`, up to the fragments it sends; `none` for `-1`. -/
def preparePut (calloc : ℕ → Bool) (gateway : GatewayState) (request : GatewayPutRequest) :
    Option (List UInt8 × ErasureCodingEngine × List Fragment) := do
  let data ← request.data
  let engine ← gateway.erasureCodingEngines (putPolicy gateway request data)
  let targets ← placementSelectTargets gateway.placement engine.dataFragmentCount
    engine.parityFragmentCount engine.totalFragments
  let encoded ← erasureCodingEncode calloc engine data
  return (data, engine, putFragments targets encoded)

/-- `gateway_put_object`, with the outcome of each `calloc` of the encoder, returning the gateway
and the status. -/
def gatewayPutObject (calloc : ℕ → Bool) (gateway : GatewayState) (request : GatewayPutRequest) :
    GatewayState × ℤ :=
  match preparePut calloc gateway request with
  | none => (gateway, -1)
  | some (data, engine, fragments) =>
    let (_, fakeSegment, result) := fragmentRouterSend gateway.fakeSegment fragments
    if result ≠ 0 then ({ gateway with fakeSegment := fakeSegment }, -1)
    else
      let manifest := putManifest gateway request data engine.totalFragments
      ({ gateway with
          fakeSegment := fakeSegment
          cache := manifestCacheInsert gateway.cache request.bucket.toCString
            request.key.toCString manifest
          metaBatch := gateway.metaBatch.add manifest }, 0)

/-- `gateway_get_response_t`. -/
structure GatewayGetResponse where
  data : List UInt8
  size : UInt64
  errorCode : ℤ

/-- `gateway_get_object`, with the outcome of its `calloc`: the response, `none` for `-1`. The data
are zeros; the fragments are not read. -/
def gatewayGetObject (calloc : Bool) (gateway : GatewayState) (bucket key : CString) :
    Option GatewayGetResponse :=
  match manifestCacheLookup gateway.cache bucket key with
  | none => none
  | some manifest =>
    if calloc then
      some ⟨List.replicate (if 0 < manifest.size then manifest.size.toNat else 1) 0,
        manifest.size, 0⟩
    else none

/-- `gateway_delete_object`, returning the gateway and the status. -/
def gatewayDeleteObject (gateway : GatewayState) (bucket key : CString) : GatewayState × ℤ :=
  ({ gateway with cache := manifestCacheInvalidate gateway.cache bucket key }, 0)

/-- `gateway_set_erasure_coding_policy`. Nothing reads the policy it sets. -/
def gatewaySetErasureCodingPolicy (gateway : GatewayState) (policy : ErasureCodingPolicy) :
    GatewayState :=
  { gateway with config := { gateway.config with defaultErasureCodingPolicy := policy } }

/-! ### Runs -/

/-- A call on the gateway, or a node registered with its placement engine. -/
inductive GatewayOp where
  | put (calloc : ℕ → Bool) (request : GatewayPutRequest)
  | get (calloc : Bool) (bucket key : CString)
  | delete (bucket key : CString)
  | setPolicy (policy : ErasureCodingPolicy)
  | registerNode (nodeId datacenterId rackId hostId : UInt32) (freeBytes : UInt64)

/-- What a call on the gateway returns. -/
inductive GatewayResult where
  | status (code : ℤ)
  | response (found : Option GatewayGetResponse)
  | nothing

/-- The code of the gateway. -/
def gatewayMachine : Machine GatewayState GatewayOp GatewayResult where
  step
    | gateway, .put calloc request =>
      ((gatewayPutObject calloc gateway request).1,
        .status (gatewayPutObject calloc gateway request).2)
    | gateway, .get calloc bucket key =>
      (gateway, .response (gatewayGetObject calloc gateway bucket key))
    | gateway, .delete bucket key =>
      ((gatewayDeleteObject gateway bucket key).1,
        .status (gatewayDeleteObject gateway bucket key).2)
    | gateway, .setPolicy policy => (gatewaySetErasureCodingPolicy gateway policy, .nothing)
    | gateway, .registerNode nodeId datacenterId rackId hostId freeBytes =>
      let r := placementRegisterNode gateway.placement nodeId datacenterId rackId hostId freeBytes
      ({ gateway with placement := r.1 }, .status r.2)

/-! ### When a put is acknowledged -/

/-- The put will be acknowledged: there are data, the engine of the policy exists and makes at
least one fragment, enough nodes are registered, and the allocations of the encoder succeed. -/
def PutAccepted (calloc : ℕ → Bool) (gateway : GatewayState) (request : GatewayPutRequest)
    (data : List UInt8) (engine : ErasureCodingEngine) : Prop :=
  request.data = some data ∧
    gateway.erasureCodingEngines (putPolicy gateway request data) = some engine ∧
    0 < engine.totalFragments ∧ engine.totalFragments ≤ gateway.placement.nodeCount ∧
    ∀ i < engine.totalFragments, calloc i = true

section Put

variable {calloc : ℕ → Bool} {gateway : GatewayState} {request : GatewayPutRequest}
  {data : List UInt8} {engine : ErasureCodingEngine}

theorem placementSelectTargets_eq_some_iff {placement : PlacementEngine} {k m : ℕ}
    {targets : List PlacementTarget} :
    placementSelectTargets placement k m (k + m) = some targets ↔ k + m ≤ placement.nodeCount ∧
      (List.range (k + m)).map (fun i => placement.nodes (i % placement.nodeCount)) = targets := by
  rw [placementSelectTargets]
  split_ifs with h
  · simp only [false_iff, not_and]
    omega
  · rw [Option.some.injEq, iff_and_self]
    omega

/-- The encoder succeeds exactly when all its allocations do, with one fragment for each. -/
theorem erasureCodingEncode_eq_some_iff :
    (∃ encoded, erasureCodingEncode calloc engine data = some encoded) ↔
      ∀ i < engine.totalFragments, calloc i = true := by
  rw [erasureCodingEncode]
  split_ifs with h
  · simpa using h
  · simpa using h

theorem length_placementSelectTargets {placement : PlacementEngine} {k m : ℕ}
    {targets : List PlacementTarget}
    (h : placementSelectTargets placement k m (k + m) = some targets) : targets.length = k + m := by
  rw [← (placementSelectTargets_eq_some_iff.mp h).2, List.length_map, List.length_range]

theorem length_putFragments {placement : PlacementEngine} {targets : List PlacementTarget}
    {encoded : EncodedFragments}
    (htargets : placementSelectTargets placement engine.dataFragmentCount
      engine.parityFragmentCount engine.totalFragments = some targets)
    (hencoded : erasureCodingEncode calloc engine data = some encoded) :
    (putFragments targets encoded).length = engine.totalFragments := by
  have hlen : targets.length = engine.totalFragments := length_placementSelectTargets htargets
  rw [erasureCodingEncode] at hencoded
  split_ifs at hencoded
  obtain rfl := Option.some.inj hencoded
  simp [putFragments, hlen]

/-- A put that reaches the router has gone through placement and encoding. -/
theorem preparePut_eq_some {fragments : List Fragment}
    (h : preparePut calloc gateway request = some (data, engine, fragments)) :
    request.data = some data ∧
      gateway.erasureCodingEngines (putPolicy gateway request data) = some engine ∧
      ∃ targets encoded,
        placementSelectTargets gateway.placement engine.dataFragmentCount
          engine.parityFragmentCount engine.totalFragments = some targets ∧
        erasureCodingEncode calloc engine data = some encoded ∧
        fragments = putFragments targets encoded := by
  simp only [preparePut, Option.bind_eq_bind, Option.bind_eq_some_iff, Option.pure_def,
    Option.some.injEq, Prod.mk.injEq] at h
  obtain ⟨_, hdata, _, hengine, targets, htargets, encoded, hencoded, rfl, rfl, rfl⟩ := h
  exact ⟨hdata, hengine, targets, encoded, htargets, hencoded, rfl⟩

/-- What the first half of a put needs to hand fragments to the router. -/
theorem preparePut_eq_some_iff :
    (∃ fragments, preparePut calloc gateway request = some (data, engine, fragments) ∧
      fragments ≠ []) ↔ PutAccepted calloc gateway request data engine := by
  constructor
  · rintro ⟨fragments, h, hne⟩
    obtain ⟨hdata, hengine, targets, encoded, htargets, hencoded, rfl⟩ := preparePut_eq_some h
    refine ⟨hdata, hengine, ?_, (placementSelectTargets_eq_some_iff.mp htargets).1,
      erasureCodingEncode_eq_some_iff.mp ⟨_, hencoded⟩⟩
    rw [← length_putFragments htargets hencoded]
    exact List.length_pos_of_ne_nil hne
  · rintro ⟨hdata, hengine, hpos, hnodes, hcalloc⟩
    obtain ⟨encoded, hencoded⟩ : ∃ encoded, erasureCodingEncode calloc engine data = some encoded :=
      erasureCodingEncode_eq_some_iff.mpr hcalloc
    obtain ⟨targets, htargets⟩ : ∃ targets, placementSelectTargets gateway.placement
        engine.dataFragmentCount engine.parityFragmentCount engine.totalFragments = some targets :=
      ⟨_, placementSelectTargets_eq_some_iff.mpr ⟨hnodes, rfl⟩⟩
    refine ⟨putFragments targets encoded, by simp [preparePut, hdata, hengine, htargets, hencoded],
      List.ne_nil_of_length_pos ?_⟩
    rw [length_putFragments htargets hencoded]
    exact hpos

/-- The router refuses only an empty list. -/
theorem fragmentRouterSend_status (fakeSegment : UInt64) (fragments : List Fragment) :
    (fragmentRouterSend fakeSegment fragments).2.2 = if fragments = [] then -1 else 0 := by
  rw [fragmentRouterSend]
  split_ifs <;> rfl

/-- **An accepted put** is acknowledged; its manifest goes to the cache and to the batch. -/
theorem gatewayPutObject_of_accepted (h : PutAccepted calloc gateway request data engine) :
    ∃ fakeSegment, gatewayPutObject calloc gateway request =
      ({ gateway with
        fakeSegment := fakeSegment
        cache := manifestCacheInsert gateway.cache request.bucket.toCString request.key.toCString
          (putManifest gateway request data engine.totalFragments)
        metaBatch :=
          gateway.metaBatch.add (putManifest gateway request data engine.totalFragments) }, 0) := by
  obtain ⟨fragments, hprepare, hne⟩ := preparePut_eq_some_iff.mpr h
  have hstatus := fragmentRouterSend_status gateway.fakeSegment fragments
  rw [if_neg hne] at hstatus
  refine ⟨(fragmentRouterSend gateway.fakeSegment fragments).2.1, ?_⟩
  simp only [gatewayPutObject, hprepare, hstatus, ne_eq, not_true_eq_false, if_false]

/-- **A put that is not accepted** fails and leaves the cache and the batch as they were. -/
theorem gatewayPutObject_of_not_accepted
    (h : ∀ data engine, ¬ PutAccepted calloc gateway request data engine) :
    ∃ fakeSegment, gatewayPutObject calloc gateway request =
      ({ gateway with fakeSegment := fakeSegment }, -1) := by
  rw [gatewayPutObject]
  cases hprepare : preparePut calloc gateway request with
  | none => exact ⟨gateway.fakeSegment, rfl⟩
  | some prepared =>
    obtain ⟨data, engine, fragments⟩ := prepared
    have hempty : fragments = [] := by
      by_contra hne
      exact h data engine (preparePut_eq_some_iff.mp ⟨fragments, hprepare, hne⟩)
    exact ⟨gateway.fakeSegment, by simp [fragmentRouterSend, hempty]⟩

end Put

end LightFS.Gateway
