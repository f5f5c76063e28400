import LightFS.Gateway.CacheMemory
import LightFS.Gateway.Processes

/-!
# The memory of a gateway

A gateway (`src/gateway/gateway.c`) on a heap, from `gateway_create` to `gateway_destroy`: its
placement engine, its router, its cache with the entries, four erasure coding engines with their
matrices, and the array of the batch. A put allocates the buffers of the fragments and releases them
when they are sent; the data of a get belong to the caller.

`gateway_create` gives up if one of the first parts cannot be allocated, but it checks neither the
engines nor the array of the batch. A put whose engine is missing fails. A put that is accepted
writes to the array of the batch, there or not, and every put that is accepted, every get and every
delete hashes its names in `int`. So the behaviour of a gateway is undefined if and only if the
hash of such names overflows, or the array is missing and a put is accepted; otherwise every call
returns what it returns in the model without memory, the router is given the same fragments, and
after the destruction only the data of the gets are allocated (`gateway_lifetime`). This is so for a
cache of at most `2 ^ 30` entries, whose array has more than a terabyte; the sum of a probe in a
larger one can overflow as well.

## Main definitions

* In `InMemory` the functions of the source; `lifetime`.
* `GatewayAddrs`, `gatewayBlocks` — where the parts of a gateway are.
* `GatewayOp.Defined` — the calls whose behaviour is defined.
* `Simulates` — a program does what a call does in the model without memory.
* `createdGateway` — the gateway that is left by the allocations that succeed.

## Main results

* `spec_gatewayCreate`, `simulates_make`, `returns_gatewayDestroy`.
* `gateway_lifetime`.
-/

namespace LightFS.Gateway

open Library Meta

/-! ### The code -/

/-- The outcomes of the allocations of `gateway_create`. -/
structure CreateAllocs where
  gateway : Bool
  placement : Bool
  router : Bool
  cache : Bool
  entries : Bool
  engines : ErasureCodingPolicy → Bool × Bool
  manifests : Bool

/-- What a put leaves: the counter of the router, the fragments that were sent, and the status. -/
structure PutOutcome where
  fakeSegment : UInt64
  sent : List Fragment
  status : ℤ

namespace InMemory

/-- `manifest_cache_create`. A size that is negative as an `int` asks for more memory than there
is. -/
def manifestCacheCreate (cacheSucceeds entriesSucceeds : Bool) (maxEntries : ℕ) :
    GatewayM (Option ℕ) := do
  match ← malloc cacheSucceeds (.cache ⟨0, maxEntries, 0⟩) with
  | none => return none
  | some cache =>
    match ← malloc (entriesSucceeds && decide (maxEntries < 2 ^ 31))
      (.entries (List.replicate maxEntries CacheEntry.zero)) with
    | none => do
      free (some cache)
      return none
    | some entries => do
      store cache (.cache ⟨entries, maxEntries, 0⟩)
      return some cache

/-- `manifest_cache_destroy`. -/
def manifestCacheDestroy (cache : ℕ) : GatewayM Unit := do
  let record ← load (·.cache?) cache
  free (some record.entries)
  free (some cache)

/-- The end of `gateway_create`: the parts that are not checked. -/
def createUnchecked (allocs : CreateAllocs) (config : GatewayConfig)
    (gateway placement router cache : ℕ) : GatewayM ℕ := do
  let replication2x ← erasureCodingEngineCreate (allocs.engines .replication2x) 1 1
  let replication3x ← erasureCodingEngineCreate (allocs.engines .replication3x) 1 2
  let sixPlusThree ← erasureCodingEngineCreate (allocs.engines .sixPlusThree) 6 3
  let tenPlusFour ← erasureCodingEngineCreate (allocs.engines .tenPlusFour) 10 4
  let manifests ← malloc allocs.manifests (.manifests (List.replicate 64 .zero))
  store gateway (.gateway
    { config, placement, router, cache, manifests
      erasureCodingEngines := fun
        | .replication2x => replication2x
        | .replication3x => replication3x
        | .sixPlusThree => sixPlusThree
        | .tenPlusFour => tenPlusFour
      batchCount := 0
      batchCapacity := 64 })
  return gateway

/-- `gateway_create`. -/
def gatewayCreate (allocs : CreateAllocs) (config : GatewayConfig) : GatewayM (Option ℕ) := do
  match ← malloc allocs.gateway (.gateway ⟨config, 0, 0, 0, fun _ => none, none, 0, 0⟩) with
  | none => return none
  | some gateway =>
    match ← malloc allocs.placement (.placement placementEngineCreate) with
    | none => do
      free (some gateway)
      return none
    | some placement =>
      match ← malloc allocs.router .router with
      | none => do
        free (some placement)
        free (some gateway)
        return none
      | some router =>
        match ← manifestCacheCreate allocs.cache allocs.entries config.cacheSize with
        | none => do
          free (some router)
          free (some placement)
          free (some gateway)
          return none
        | some cache => do
          let gateway ← createUnchecked allocs config gateway placement router cache
          return some gateway

/-- The policies in the order of the array of engines. -/
def policies : List ErasureCodingPolicy :=
  [.replication2x, .replication3x, .sixPlusThree, .tenPlusFour]

/-- `gateway_destroy`. -/
def gatewayDestroy (gateway : ℕ) : GatewayM Unit := do
  let record ← load (·.gateway?) gateway
  policies.forM fun policy => erasureCodingEngineDestroy (record.erasureCodingEngines policy)
  free record.manifests
  manifestCacheDestroy record.cache
  free (some record.router)
  free (some record.placement)
  free (some gateway)

/-- `select_erasure_coding_policy`. -/
def selectErasureCodingPolicy (record : GatewayRecord) (objectSize : ℕ) : ErasureCodingPolicy :=
  if objectSize < 4 * 1024 * 1024 then
    if record.config.defaultReplicationFactor = 3 then .replication3x else .replication2x
  else if objectSize < 64 * 1024 * 1024 then .sixPlusThree
  else .tenPlusFour

/-- The manifest of a put. -/
def putManifest (record : GatewayRecord) (request : GatewayPutRequest) (data : List UInt8)
    (total : ℕ) : ObjectManifest :=
  { ObjectManifest.zero with
    bucket := .strncpy request.bucket.toCString
    key := .strncpy request.key.toCString
    size := UInt64.ofNat data.length
    fragmentCount := UInt32.ofNat total
    datacenterId := record.config.datacenterId
    fragments_length := fun l hl => absurd hl (Option.not_mem_none l) }

/-- `meta_batch.manifests[meta_batch.count++] = manifest`, if there is room. -/
def appendManifest (gateway : ℕ) (manifest : ObjectManifest) : GatewayM Unit := do
  let record ← load (·.gateway?) gateway
  if record.batchCount < record.batchCapacity then
    match record.manifests with
    | none => fault
    | some manifests => do
      let array ← load (·.manifests?) manifests
      if record.batchCount < array.length then do
        store manifests (.manifests (array.set record.batchCount manifest))
        store gateway (.gateway { record with batchCount := record.batchCount + 1 })
      else fault
  else return ()

/-- The fragments as the router can read them, and what it makes of them. -/
def sendFragments (fakeSegment : UInt64) (targets : List PlacementTarget)
    (encoded : List ℕ × List ℕ) : GatewayM (List Fragment × UInt64 × ℤ) := do
  let data ← encoded.1.mapM (load (·.bytes?))
  return fragmentRouterSend fakeSegment (putFragments targets ⟨data, encoded.2⟩)

/-- `gateway_put_object` from the choice of the targets to the release of the buffers; `none` for
`-1`. -/
def encodeAndSend (calloc : ℕ → Bool) (engine : ℕ) (data : List UInt8)
    (targets : List PlacementTarget) (fakeSegment : UInt64) :
    GatewayM (Option (List Fragment × UInt64 × ℤ)) := do
  match ← erasureCodingEncode calloc engine data with
  | none => return none
  | some encoded => do
    let sent ← sendFragments fakeSegment targets encoded
    freeFragments encoded.1
    return some sent

/-- The first half of `gateway_put_object`, up to the release of the buffers: the data, the number
of fragments and what the router returned; `none` for `-1`. -/
def preparePut (calloc : ℕ → Bool) (gateway : ℕ) (request : GatewayPutRequest)
    (fakeSegment : UInt64) : GatewayM (Option (List UInt8 × ℕ × List Fragment × UInt64 × ℤ)) :=
  match request.data with
  | none => return none
  | some data => do
    let record ← load (·.gateway?) gateway
    let policy := request.erasureCodingPolicyOverride.getD
      (selectErasureCodingPolicy record data.length)
    match record.erasureCodingEngines policy with
    | none => return none
    | some engine => do
      let counts ← load (·.engine?) engine
      let total := counts.dataFragmentCount + counts.parityFragmentCount
      let placement ← load (·.placement?) record.placement
      match placementSelectTargets placement counts.dataFragmentCount counts.parityFragmentCount
        total with
      | none => return none
      | some targets => do
        let sent ← encodeAndSend calloc engine data targets fakeSegment
        return sent.map (data, total, ·)

/-- The second half of `gateway_put_object`. -/
def finishPut (gateway : ℕ) (request : GatewayPutRequest) (data : List UInt8) (total : ℕ)
    (sent : List Fragment × UInt64 × ℤ) : GatewayM PutOutcome :=
  if sent.2.2 ≠ 0 then return ⟨sent.2.1, sent.1, -1⟩
  else do
    let record ← load (·.gateway?) gateway
    let manifest := putManifest record request data total
    manifestCacheInsert record.cache request.bucket.toCString request.key.toCString manifest
    appendManifest gateway manifest
    return ⟨sent.2.1, sent.1, 0⟩

/-- `gateway_put_object`. -/
def gatewayPutObject (calloc : ℕ → Bool) (gateway : ℕ) (request : GatewayPutRequest)
    (fakeSegment : UInt64) : GatewayM PutOutcome := do
  match ← preparePut calloc gateway request fakeSegment with
  | none => return ⟨fakeSegment, [], -1⟩
  | some (data, total, sent) => finishPut gateway request data total sent

/-- `gateway_get_object`: the address of the data and their size, `none` for `-1`. -/
def gatewayGetObject (calloc : Bool) (gateway : ℕ) (bucket key : CString) :
    GatewayM (Option (ℕ × UInt64)) := do
  let record ← load (·.gateway?) gateway
  match ← manifestCacheLookup record.cache bucket key with
  | none => return none
  | some manifest => do
    let data ← malloc calloc (.bytes
      (List.replicate (if 0 < manifest.size then manifest.size.toNat else 1) 0))
    return data.map (·, manifest.size)

/-- `gateway_delete_object`. -/
def gatewayDeleteObject (gateway : ℕ) (bucket key : CString) : GatewayM ℤ := do
  let record ← load (·.gateway?) gateway
  manifestCacheInvalidate record.cache bucket key
  return 0

/-- `gateway_set_erasure_coding_policy`. -/
def gatewaySetErasureCodingPolicy (gateway : ℕ) (policy : ErasureCodingPolicy) :
    GatewayM Unit := do
  let record ← load (·.gateway?) gateway
  store gateway (.gateway
    { record with config := { record.config with defaultErasureCodingPolicy := policy } })

/-- `placement_register_node` on the placement engine of `gateway_get_placement`. -/
def registerNode (gateway : ℕ) (nodeId datacenterId rackId hostId : UInt32) (freeBytes : UInt64) :
    GatewayM ℤ := do
  let record ← load (·.gateway?) gateway
  let placement ← load (·.placement?) record.placement
  let r := placementRegisterNode placement nodeId datacenterId rackId hostId freeBytes
  store record.placement (.placement r.1)
  return r.2

end InMemory

/-! ### The life of a gateway -/

/-- What the caller of a get sees. -/
def readResponse : Option (ℕ × UInt64) → GatewayM GatewayResult
  | none => return .response none
  | some (p, size) => do
    let data ← load (·.bytes?) p
    return .response (some ⟨data, size, 0⟩)

/-- A call, with what its caller sees, and the fragments that are sent. -/
def GatewayOp.make (gateway : ℕ) (fakeSegment : UInt64) :
    GatewayOp → GatewayM (UInt64 × GatewayResult × List Fragment)
  | .put calloc request => do
    let r ← InMemory.gatewayPutObject calloc gateway request fakeSegment
    return (r.fakeSegment, .status r.status, r.sent)
  | .get calloc bucket key => do
    let r ← InMemory.gatewayGetObject calloc gateway bucket key
    let result ← readResponse r
    return (fakeSegment, result, [])
  | .delete bucket key => do
    let status ← InMemory.gatewayDeleteObject gateway bucket key
    return (fakeSegment, .status status, [])
  | .setPolicy policy => do
    InMemory.gatewaySetErasureCodingPolicy gateway policy
    return (fakeSegment, .nothing, [])
  | .registerNode nodeId datacenterId rackId hostId freeBytes => do
    let status ← InMemory.registerNode gateway nodeId datacenterId rackId hostId freeBytes
    return (fakeSegment, .status status, [])

/-- Calls one after the other: what their callers see, and the fragments that are sent. -/
def makeCalls (gateway : ℕ) : UInt64 → List GatewayOp →
    GatewayM (List GatewayResult × List Fragment)
  | _, [] => return ([], [])
  | fakeSegment, op :: ops => do
    let r ← op.make gateway fakeSegment
    let r' ← makeCalls gateway r.1 ops
    return (r.2.1 :: r'.1, r.2.2 ++ r'.2)

/-- A gateway from its creation to its destruction; `none` if it is not created. -/
def lifetime (allocs : CreateAllocs) (config : GatewayConfig) (fakeSegment : UInt64)
    (ops : List GatewayOp) : GatewayM (Option (List GatewayResult × List Fragment)) := do
  match ← InMemory.gatewayCreate allocs config with
  | none => return none
  | some gateway => do
    let seen ← makeCalls gateway fakeSegment ops
    InMemory.gatewayDestroy gateway
    return some seen

/-! ### The parts of a gateway -/

/-- Where the parts of a gateway are; an engine is at two addresses. -/
structure GatewayAddrs where
  gateway : ℕ
  placement : ℕ
  router : ℕ
  cache : ℕ
  entries : ℕ
  engines : ErasureCodingPolicy → ℕ × ℕ
  manifests : Option ℕ

/-- The record of a gateway. -/
def GatewayAddrs.record (a : GatewayAddrs) (g : GatewayState) : GatewayRecord where
  config := g.config
  placement := a.placement
  router := a.router
  cache := a.cache
  erasureCodingEngines policy := (g.erasureCodingEngines policy).map fun _ => (a.engines policy).1
  manifests := a.manifests
  batchCount := g.metaBatch.count
  batchCapacity := g.metaBatch.capacity

/-- The blocks of an engine that is there. -/
def GatewayAddrs.engineBlocks (a : GatewayAddrs) (g : GatewayState)
    (policy : ErasureCodingPolicy) : List (ℕ × GatewayBlock) :=
  (g.erasureCodingEngines policy).elim [] (Gateway.engineBlocks (a.engines policy))

/-- The block of the batch, if it is there. -/
def GatewayAddrs.batchBlocks (a : GatewayAddrs) (g : GatewayState) : List (ℕ × GatewayBlock) :=
  a.manifests.toList.map (·, .manifests (slots g.metaBatch.manifests g.metaBatch.capacity))

/-- All blocks of a gateway. -/
def gatewayBlocks (a : GatewayAddrs) (g : GatewayState) : List (ℕ × GatewayBlock) :=
  (a.gateway, .gateway (a.record g)) :: (a.placement, .placement g.placement) ::
    (cacheBlocks (a.cache, a.entries) g.cache ++
      (a.batchBlocks g ++ (a.router, .router) :: InMemory.policies.flatMap (a.engineBlocks g)))

/-! ### Calls with defined behaviour -/

/-- The behaviour of a call is defined: the hash of the names of a get, of a delete and of a put
that is accepted overflows no `int`, and the put finds the array of the batch. -/
def GatewayOp.Defined (hasBatch : Bool) (g : GatewayState) : GatewayOp → Prop
  | .put calloc request => IsAcceptedPut g (.put calloc request) →
      NamesInInt request.bucket.toCString request.key.toCString ∧ hasBatch = true
  | .get _ bucket key => NamesInInt bucket key
  | .delete bucket key => NamesInInt bucket key
  | .setPolicy _ => True
  | .registerNode .. => True

/-- The behaviour of all calls of a run is defined. -/
abbrev DefinedCalls (hasBatch : Bool) (g : GatewayState) (ops : List GatewayOp) : Prop :=
  gatewayMachine.Meets (fun g op => op.Defined hasBatch g) g ops

/-- What holds of a gateway before every call: its cache is well formed and not too large for the
sums of its probes, and a batch whose array is missing has room, since nothing was put. -/
structure GatewayAddrs.Sound (a : GatewayAddrs) (g : GatewayState) : Prop where
  wellFormed : g.cache.WellFormed
  capacity_le : g.cache.capacity ≤ 2 ^ 30
  room : a.manifests = none → g.metaBatch.count < g.metaBatch.capacity

section Calls

variable {a : GatewayAddrs} {g : GatewayState}

theorem mem_policies (policy : ErasureCodingPolicy) : policy ∈ InMemory.policies := by
  cases policy <;> decide

/-- An engine that is there is among the blocks. -/
theorem engineBlocks_subset {policy : ErasureCodingPolicy} {engine : ErasureCodingEngine}
    (h : g.erasureCodingEngines policy = some engine) :
    engineBlocks (a.engines policy) engine ⊆ gatewayBlocks a g := by
  intro block hblock
  have hpart : block ∈ a.engineBlocks g policy := by
    rw [GatewayAddrs.engineBlocks, h]
    exact hblock
  have hparts : block ∈ InMemory.policies.flatMap (a.engineBlocks g) :=
    List.mem_flatMap.mpr ⟨policy, mem_policies policy, hpart⟩
  simp [gatewayBlocks, hparts]

theorem returns_loadGateway :
    Returns (gatewayBlocks a g) (load (·.gateway?) a.gateway) (a.record g) (gatewayBlocks a g) :=
  returns_load List.mem_cons_self rfl

theorem returns_loadPlacement :
    Returns (gatewayBlocks a g) (load (·.placement?) a.placement) g.placement
      (gatewayBlocks a g) :=
  returns_load (List.mem_cons_of_mem _ List.mem_cons_self) rfl

/-- What a program does to the cache, it does to the gateway. -/
theorem returns_onCache {γ : Type} {prog : GatewayM γ} {c : γ} {cache : ManifestCache}
    (hprog : Returns (cacheBlocks (a.cache, a.entries) g.cache) prog c
      (cacheBlocks (a.cache, a.entries) cache)) :
    Returns (gatewayBlocks a g) prog c (gatewayBlocks a { g with cache := cache }) :=
  hprog.between [_, _] _

theorem fails_onCache {γ : Type} {prog : GatewayM γ}
    (hprog : Fails (cacheBlocks (a.cache, a.entries) g.cache) prog) :
    Fails (gatewayBlocks a g) prog :=
  hprog.between [_, _] _

/-- A manifest goes to the batch, if its array is there or it is full. -/
theorem returns_appendManifest (manifest : ObjectManifest)
    (hbatch : a.manifests = none → ¬ g.metaBatch.count < g.metaBatch.capacity) :
    Returns (gatewayBlocks a g) (InMemory.appendManifest a.gateway manifest) ()
      (gatewayBlocks a { g with metaBatch := g.metaBatch.add manifest }) := by
  refine Returns.bind returns_loadGateway ?_
  rw [ManifestBatch.add]
  by_cases hroom : g.metaBatch.count < g.metaBatch.capacity
  · have hroom' : (a.record g).batchCount < (a.record g).batchCapacity := hroom
    rw [if_pos hroom, if_pos hroom']
    split
    · rename_i hnone
      exact absurd hroom (hbatch hnone)
    · rename_i manifests hsome
      have hblocks (g' : GatewayState) :
          a.batchBlocks g' = [(manifests, .manifests
            (slots g'.metaBatch.manifests g'.metaBatch.capacity))] := by
        rw [GatewayAddrs.batchBlocks, show a.manifests = some manifests from hsome]
        rfl
      rw [gatewayBlocks, gatewayBlocks, hblocks, hblocks]
      refine Returns.bind (returns_load (b := .manifests
        (slots g.metaBatch.manifests g.metaBatch.capacity)) (by simp) rfl) ?_
      have hlength : (a.record g).batchCount <
          (slots g.metaBatch.manifests g.metaBatch.capacity).length := by
        rwa [length_slots]
      rw [if_pos hlength, slots_update]
      refine Returns.bind (returns_store_middle [_, _, _, _] _) ?_
      exact returns_store_middle [] _
  · have hroom' : ¬ (a.record g).batchCount < (a.record g).batchCapacity := hroom
    rw [if_neg hroom, if_neg hroom']
    exact Spec.pure ⟨rfl, rfl⟩

theorem fails_appendManifest (manifest : ObjectManifest) (hnone : a.manifests = none)
    (hroom : g.metaBatch.count < g.metaBatch.capacity) :
    Fails (gatewayBlocks a g) (InMemory.appendManifest a.gateway manifest) := by
  refine Returns.bind_fails returns_loadGateway ?_
  have hroom' : (a.record g).batchCount < (a.record g).batchCapacity := hroom
  have hmanifests : (a.record g).manifests = none := hnone
  rw [if_pos hroom', hmanifests]
  exact fails_fault

/-- The router is given the fragments that are in the buffers. -/
theorem returns_sendFragments {pre : List (ℕ × GatewayBlock)} {ptrs : List ℕ}
    {f : ℕ → List UInt8} (fakeSegment : UInt64) (targets : List PlacementTarget)
    (sizes : List ℕ) :
    Returns (pointees ptrs (fun i => .bytes (f i)) ++ pre)
      (InMemory.sendFragments fakeSegment targets (ptrs, sizes))
      (fragmentRouterSend fakeSegment (putFragments targets ⟨slots f ptrs.length, sizes⟩))
      (pointees ptrs (fun i => .bytes (f i)) ++ pre) := by
  refine Returns.bind (returns_mapM_load (List.forall₂_iff_get.mpr ⟨?_, fun i hi hi' => ?_⟩))
    (Spec.pure ⟨rfl, rfl⟩)
  · rw [length_slots]
  · refine ⟨.bytes (f i), List.mem_append_left _ (mem_pointees (i := i) ?_), ?_⟩
    · exact List.getElem?_eq_getElem hi
    · simp [GatewayBlock.bytes?]

/-- The buffers of a put are released before it goes on. -/
theorem returns_encodeAndSend {addr : ℕ × ℕ} {engine : ErasureCodingEngine}
    (hengine : engineBlocks addr engine ⊆ gatewayBlocks a g) (calloc : ℕ → Bool)
    (data : List UInt8) (targets : List PlacementTarget) (fakeSegment : UInt64) :
    Returns (gatewayBlocks a g)
      (InMemory.encodeAndSend calloc addr.1 data targets fakeSegment)
      ((erasureCodingEncode calloc engine data).map fun encoded =>
        fragmentRouterSend fakeSegment (putFragments targets encoded)) (gatewayBlocks a g) := by
  refine Spec.bind (spec_erasureCodingEncode hengine calloc data) ?_
  rintro _ _ (⟨hcalloc, ptrs, rfl, hptrs, rfl⟩ | ⟨hcalloc, rfl, rfl⟩)
  · refine Returns.bind (returns_sendFragments _ _ _) ?_
    refine Returns.bind (returns_free_pointees _ _) ?_
    rw [erasureCodingEncode_of_calloc hcalloc, hptrs]
    exact Spec.pure ⟨rfl, rfl⟩
  · have hnone : erasureCodingEncode calloc engine data = none := by
      rw [erasureCodingEncode, if_neg (by simpa using hcalloc)]
    rw [hnone]
    exact Spec.pure ⟨rfl, rfl⟩

/-- The first half of a put is that of the model without memory, and leaves the blocks as they
are. -/
theorem returns_preparePut (calloc : ℕ → Bool) (request : GatewayPutRequest) :
    Returns (gatewayBlocks a g)
      (InMemory.preparePut calloc a.gateway request g.fakeSegment)
      ((preparePut calloc g request).map fun prepared =>
        (prepared.1, prepared.2.1.totalFragments,
          fragmentRouterSend g.fakeSegment prepared.2.2)) (gatewayBlocks a g) := by
  rw [InMemory.preparePut, preparePut]
  rcases request.data with _ | data
  · exact Spec.pure ⟨rfl, rfl⟩
  refine Returns.bind returns_loadGateway ?_
  rw [Option.bind_eq_bind, Option.bind_some]
  have hrecord : (a.record g).erasureCodingEngines (request.erasureCodingPolicyOverride.getD
      (InMemory.selectErasureCodingPolicy (a.record g) data.length)) =
        (g.erasureCodingEngines (putPolicy g request data)).map
          fun _ => (a.engines (putPolicy g request data)).1 := rfl
  dsimp only
  rw [hrecord]
  rcases hengine : g.erasureCodingEngines (putPolicy g request data) with _ | engine
  · exact Spec.pure ⟨rfl, rfl⟩
  have hsubset := engineBlocks_subset (a := a) hengine
  refine Returns.bind (returns_load (hsubset List.mem_cons_self) rfl) ?_
  refine Returns.bind returns_loadPlacement ?_
  rw [Option.bind_eq_bind, Option.bind_some, ErasureCodingEngine.totalFragments]
  rcases placementSelectTargets g.placement engine.dataFragmentCount engine.parityFragmentCount
    (engine.dataFragmentCount + engine.parityFragmentCount) with _ | targets
  · exact Spec.pure ⟨rfl, rfl⟩
  refine Returns.bind (returns_encodeAndSend hsubset calloc data targets g.fakeSegment) ?_
  rw [Option.bind_eq_bind, Option.bind_some]
  rcases erasureCodingEncode calloc engine data with _ | encoded
  · exact Spec.pure ⟨rfl, rfl⟩
  · exact Spec.pure ⟨rfl, rfl⟩

/-- A put is that of the model without memory, if its behaviour is defined. -/
theorem returns_gatewayPutObject (hsound : a.Sound g) {calloc : ℕ → Bool}
    {request : GatewayPutRequest}
    (hdefined : GatewayOp.Defined a.manifests.isSome g (.put calloc request)) :
    Returns (gatewayBlocks a g)
      (InMemory.gatewayPutObject calloc a.gateway request g.fakeSegment)
      ⟨(gatewayPutObject calloc g request).1.fakeSegment, routedBy g (.put calloc request),
        (gatewayPutObject calloc g request).2⟩
      (gatewayBlocks a (gatewayPutObject calloc g request).1) := by
  refine Returns.bind (returns_preparePut calloc request) ?_
  rw [gatewayPutObject, routedBy]
  rcases hprepare : preparePut calloc g request with _ | ⟨data, engine, fragments⟩
  · exact Spec.pure ⟨rfl, rfl⟩
  dsimp only [Option.map_some, InMemory.finishPut]
  split_ifs with hstatus
  · exact Spec.pure ⟨rfl, rfl⟩
  · have hne : fragments ≠ [] := by
      rintro rfl
      rw [fragmentRouterSend_status, if_pos rfl] at hstatus
      exact hstatus (by decide)
    have haccepted : IsAcceptedPut g (.put calloc request) :=
      ⟨calloc, request, data, engine, rfl, preparePut_eq_some_iff.mp ⟨fragments, hprepare, hne⟩⟩
    obtain ⟨hnames, hbatch⟩ := hdefined haccepted
    have hinsert := returns_manifestCacheInsert (a.cache, a.entries) hsound.wellFormed
      hsound.capacity_le hnames (putManifest g request data engine.totalFragments)
    refine Returns.bind returns_loadGateway (Returns.bind (returns_onCache hinsert) ?_)
    refine Returns.bind (returns_appendManifest _ fun hnone => ?_) (Spec.pure ⟨rfl, rfl⟩)
    rw [hnone] at hbatch
    cases hbatch

/-- The behaviour of a put that is accepted is undefined if the hash of its names overflows, or if
its manifest goes to an array that is missing. -/
theorem fails_gatewayPutObject (hsound : a.Sound g) {calloc : ℕ → Bool}
    {request : GatewayPutRequest}
    (hundefined : ¬ GatewayOp.Defined a.manifests.isSome g (.put calloc request)) :
    Fails (gatewayBlocks a g)
      (InMemory.gatewayPutObject calloc a.gateway request g.fakeSegment) := by
  obtain ⟨⟨_, _, data, engine, heq, hput⟩, hnot⟩ := Classical.not_imp.mp hundefined
  obtain ⟨rfl, rfl⟩ := GatewayOp.put.inj heq
  obtain ⟨fragments, hprepare, hne⟩ := preparePut_eq_some_iff.mpr hput
  refine Returns.bind_fails (returns_preparePut _ _) ?_
  have hstatus := fragmentRouterSend_status g.fakeSegment fragments
  rw [if_neg hne] at hstatus
  rw [hprepare]
  dsimp only [Option.map_some, InMemory.finishPut]
  rw [if_neg (not_not.mpr hstatus)]
  refine Returns.bind_fails returns_loadGateway ?_
  by_cases hnames : NamesInInt request.bucket.toCString request.key.toCString
  · have hnone : a.manifests = none := by
      rw [← Option.not_isSome_iff_eq_none]
      exact fun hsome => hnot ⟨hnames, hsome⟩
    have hinsert := returns_manifestCacheInsert (a.cache, a.entries) hsound.wellFormed
      hsound.capacity_le hnames (putManifest g request data engine.totalFragments)
    refine Returns.bind_fails (returns_onCache hinsert) ?_
    exact Fails.bind (fails_appendManifest _ hnone (hsound.room hnone))
  · exact Fails.bind (fails_onCache (fails_manifestCacheInsert hnames _))

/-- The data that a caller is given. -/
def GatewayResult.handedOut : GatewayResult → List GatewayBlock
  | .response (some r) => [.bytes r.data]
  | _ => []

/-- A get leaves the data to its caller. -/
theorem spec_get (hsound : a.Sound g) (calloc : Bool) {bucket key : CString}
    (hnames : NamesInInt bucket key) :
    Spec (gatewayBlocks a g) (GatewayOp.make a.gateway g.fakeSegment (.get calloc bucket key))
      fun r owned => r = (g.fakeSegment, .response (gatewayGetObject calloc g bucket key), []) ∧
        ∃ handed, owned = gatewayBlocks a g ++ handed ∧ handed.map Prod.snd =
          GatewayResult.handedOut (.response (gatewayGetObject calloc g bucket key)) := by
  have hget : Spec (gatewayBlocks a g) (InMemory.gatewayGetObject calloc a.gateway bucket key)
      fun r owned => match gatewayGetObject calloc g bucket key with
        | none => r = none ∧ owned = gatewayBlocks a g
        | some response => ∃ p, r = some (p, response.size) ∧ response.errorCode = 0 ∧
          owned = (p, .bytes response.data) :: gatewayBlocks a g := by
    have hlookup := returns_manifestCacheLookup (a.cache, a.entries) hsound.wellFormed
      hsound.capacity_le hnames
    refine Returns.bind returns_loadGateway (Returns.bind (returns_onCache hlookup) ?_)
    rw [gatewayGetObject]
    rcases manifestCacheLookup g.cache bucket key with _ | manifest
    · exact Spec.pure ⟨rfl, rfl⟩
    · cases calloc
      · exact Returns.bind (returns_malloc_false _) (Spec.pure ⟨rfl, rfl⟩)
      · exact Spec.bind_malloc fun p => Spec.pure ⟨p, rfl, rfl, rfl⟩
  refine Spec.bind hget ?_
  rcases gatewayGetObject calloc g bucket key with _ | ⟨data, size, errorCode⟩
  · rintro _ _ ⟨rfl, rfl⟩
    exact Spec.pure ⟨rfl, [], (List.append_nil _).symm, rfl⟩
  · rintro _ _ ⟨p, rfl, rfl, rfl⟩
    refine Returns.bind (c := .response (some ⟨data, size, 0⟩))
      (Returns.bind (returns_load List.mem_cons_self rfl) (Spec.pure ⟨rfl, rfl⟩)) ?_
    refine Spec.pure_of_perm (List.perm_append_singleton _ _).symm ?_
    exact ⟨rfl, [(p, .bytes data)], rfl, rfl⟩

/-- The program does what a call does in the model without memory: the caller sees its result and
is given its data, the router is given the same fragments, and the parts of the gateway are where
they were. -/
def Simulates (a : GatewayAddrs) (g : GatewayState) (op : GatewayOp)
    (prog : GatewayM (UInt64 × GatewayResult × List Fragment)) : Prop :=
  Spec (gatewayBlocks a g) prog fun r owned =>
    r = ((gatewayMachine.step g op).1.fakeSegment, (gatewayMachine.step g op).2,
      routedBy g op) ∧
    ∃ handed, owned = gatewayBlocks a (gatewayMachine.step g op).1 ++ handed ∧
      handed.map Prod.snd = (gatewayMachine.step g op).2.handedOut

/-- A call that hands out nothing. -/
theorem simulates_of_returns {op : GatewayOp}
    {prog : GatewayM (UInt64 × GatewayResult × List Fragment)}
    (hhanded : (gatewayMachine.step g op).2.handedOut = [])
    (hprog : Returns (gatewayBlocks a g) prog
      ((gatewayMachine.step g op).1.fakeSegment, (gatewayMachine.step g op).2, routedBy g op)
      (gatewayBlocks a (gatewayMachine.step g op).1)) :
    Simulates a g op prog := by
  refine hprog.weaken ?_
  rintro _ _ ⟨rfl, rfl⟩
  exact ⟨rfl, [], (List.append_nil _).symm, hhanded.symm⟩

/-- **One call** does what it does in the model without memory, if its behaviour is defined. -/
theorem simulates_make (hsound : a.Sound g) {op : GatewayOp}
    (hdefined : op.Defined a.manifests.isSome g) :
    Simulates a g op (op.make a.gateway g.fakeSegment) := by
  cases op with
  | put calloc request =>
    exact simulates_of_returns rfl (Returns.bind (returns_gatewayPutObject hsound hdefined)
      (Spec.pure ⟨rfl, rfl⟩))
  | get calloc bucket key => exact spec_get hsound calloc hdefined
  | delete bucket key =>
    have hinvalidate := returns_manifestCacheInvalidate (a.cache, a.entries)
      hsound.wellFormed hsound.capacity_le hdefined
    refine simulates_of_returns rfl (Returns.bind (c := 0) ?_ (Spec.pure ⟨rfl, rfl⟩))
    refine Returns.bind returns_loadGateway ?_
    exact Returns.bind (returns_onCache hinvalidate) (Spec.pure ⟨rfl, rfl⟩)
  | setPolicy policy =>
    refine simulates_of_returns rfl (Returns.bind (c := ()) ?_ (Spec.pure ⟨rfl, rfl⟩))
    exact Returns.bind returns_loadGateway (returns_store_middle [] _)
  | registerNode nodeId datacenterId rackId hostId freeBytes =>
    refine simulates_of_returns rfl (Returns.bind (c := (placementRegisterNode g.placement nodeId
      datacenterId rackId hostId freeBytes).2) ?_ (Spec.pure ⟨rfl, rfl⟩))
    refine Returns.bind returns_loadGateway (Returns.bind returns_loadPlacement ?_)
    exact Returns.bind (returns_store_middle [_] _) (Spec.pure ⟨rfl, rfl⟩)

/-- The other calls have undefined behaviour. -/
theorem fails_make (hsound : a.Sound g) {op : GatewayOp}
    (hundefined : ¬ op.Defined a.manifests.isSome g) :
    Fails (gatewayBlocks a g) (op.make a.gateway g.fakeSegment) := by
  cases op with
  | put calloc request => exact Fails.bind (fails_gatewayPutObject hsound hundefined)
  | get calloc bucket key =>
    refine Fails.bind (Returns.bind_fails returns_loadGateway (Fails.bind ?_))
    exact fails_onCache (fails_manifestCacheLookup hundefined)
  | delete bucket key =>
    refine Fails.bind (Returns.bind_fails returns_loadGateway (Fails.bind ?_))
    exact fails_onCache (fails_manifestCacheInvalidate hundefined)
  | setPolicy policy => exact absurd trivial hundefined
  | registerNode nodeId datacenterId rackId hostId freeBytes => exact absurd trivial hundefined

/-- A call keeps the cache well formed and as large as it is. -/
theorem cache_step (hwf : g.cache.WellFormed) (op : GatewayOp) :
    (gatewayMachine.step g op).1.cache.WellFormed ∧
      (gatewayMachine.step g op).1.cache.capacity = g.cache.capacity := by
  cases gatewayMachine_step g op with
  | put calloc request data manifest _ _ _ _ _ hcache _ =>
    rw [hcache]
    exact ⟨hwf.insert _ _ _, capacity_manifestCacheInsert hwf _ _ _⟩
  | delete bucket key _ hcache _ =>
    rw [hcache]
    exact ⟨hwf.invalidate _ _, capacity_manifestCacheInvalidate hwf _ _⟩
  | other _ hcache _ =>
    rw [hcache]
    exact ⟨hwf, rfl⟩

/-- One call with defined behaviour leaves the gateway sound. -/
theorem GatewayAddrs.Sound.step (hsound : a.Sound g) {op : GatewayOp}
    (hdefined : op.Defined a.manifests.isSome g) : a.Sound (gatewayMachine.step g op).1 := by
  obtain ⟨hwf, hcapacity⟩ := cache_step hsound.wellFormed op
  refine ⟨hwf, hcapacity ▸ hsound.capacity_le, fun hnone => ?_⟩
  rcases step_metaBatch g op with ⟨_, haccepted, -⟩ | ⟨-, -, hbatch⟩
  · obtain ⟨calloc, request, data, engine, rfl, hput⟩ := haccepted
    have hsome := (hdefined ⟨calloc, request, data, engine, rfl, hput⟩).2
    rw [hnone] at hsome
    cases hsome
  · rw [hbatch]
    exact hsound.room hnone

end Calls

/-! ### Runs -/

/-- The fragments that are sent in a run. -/
def routed : GatewayState → List GatewayOp → List Fragment
  | _, [] => []
  | g, op :: ops => routedBy g op ++ routed (gatewayMachine.step g op).1 ops

section Runs

variable {a : GatewayAddrs}

theorem spec_makeCalls {g : GatewayState} (hsound : a.Sound g) {ops : List GatewayOp}
    (hdefined : DefinedCalls a.manifests.isSome g ops) :
    Spec (gatewayBlocks a g) (makeCalls a.gateway g.fakeSegment ops) fun seen owned =>
      seen = (gatewayMachine.results g ops, routed g ops) ∧
      ∃ handed, owned = gatewayBlocks a (gatewayMachine.run g ops) ++ handed ∧
        handed.map Prod.snd = (gatewayMachine.results g ops).flatMap (·.handedOut) := by
  induction ops generalizing g with
  | nil => exact Spec.pure ⟨rfl, [], (List.append_nil _).symm, rfl⟩
  | cons op ops ih =>
    refine Spec.bind (simulates_make hsound hdefined.1) ?_
    rintro _ _ ⟨rfl, handed, rfl, hhanded⟩
    refine Spec.bind ((ih (hsound.step hdefined.1) hdefined.2).frame handed) ?_
    rintro _ _ ⟨_, rfl, rfl, handed', rfl, hhanded'⟩
    set g' := gatewayMachine.run (gatewayMachine.step g op).1 ops
    have hperm : (gatewayBlocks a g' ++ handed' ++ handed).Perm
        (gatewayBlocks a g' ++ (handed ++ handed')) := by
      rw [List.append_assoc]
      exact List.perm_append_comm.append_left _
    refine Spec.pure_of_perm hperm ⟨rfl, handed ++ handed', rfl, ?_⟩
    rw [List.map_append, hhanded, hhanded']
    rfl

theorem fails_makeCalls {g : GatewayState} (hsound : a.Sound g) {ops : List GatewayOp}
    (hundefined : ¬ DefinedCalls a.manifests.isSome g ops) :
    Fails (gatewayBlocks a g) (makeCalls a.gateway g.fakeSegment ops) := by
  induction ops generalizing g with
  | nil => exact absurd trivial hundefined
  | cons op ops ih =>
    by_cases hdefined : op.Defined a.manifests.isSome g
    · refine Spec.bind_fails (simulates_make hsound hdefined) ?_
      rintro _ _ ⟨rfl, handed, rfl, -⟩
      refine Fails.bind (Fails.frame (ih (hsound.step hdefined) fun hrest => ?_) handed)
      exact hundefined ⟨hdefined, hrest⟩
    · exact Fails.bind (fails_make hsound hdefined)

end Runs

/-! ### Creation and destruction -/

/-- A new gateway, with the engines that could be allocated. -/
def newGateway (allocs : CreateAllocs) (config : GatewayConfig) (fakeSegment : UInt64) :
    GatewayState where
  config := config
  placement := placementEngineCreate
  fakeSegment := fakeSegment
  cache := manifestCacheCreate config.cacheSize
  erasureCodingEngines policy :=
    if allocs.engines policy = (true, true) then
      erasureCodingEngineCreate (erasureCodingParamsForPolicy policy).dataFragments
        (erasureCodingParamsForPolicy policy).parityFragments
    else none
  metaBatch := { manifests := fun _ => .zero, count := 0, capacity := 64 }

/-- All parts that `gateway_create` checks can be allocated. -/
def CreateAllocs.Checked (allocs : CreateAllocs) (config : GatewayConfig) : Prop :=
  allocs.gateway ∧ allocs.placement ∧ allocs.router ∧ allocs.cache ∧ allocs.entries ∧
    config.cacheSize < 2 ^ 31

instance (allocs : CreateAllocs) (config : GatewayConfig) : Decidable (allocs.Checked config) :=
  inferInstanceAs (Decidable (_ ∧ _))

/-- The gateway that is created, if it is. -/
def createdGateway (allocs : CreateAllocs) (config : GatewayConfig) (fakeSegment : UInt64) :
    Option GatewayState :=
  if allocs.Checked config then some (newGateway allocs config fakeSegment) else none

/-- With all its engines it is the gateway of the model without memory. -/
theorem createdGateway_eq_gatewayCreate {allocs : CreateAllocs} {config : GatewayConfig}
    (hchecked : allocs.Checked config) (hengines : ∀ policy, allocs.engines policy = (true, true))
    (fakeSegment : UInt64) :
    createdGateway allocs config fakeSegment = gatewayCreate config fakeSegment := by
  have hsize : config.cacheSize < 2 ^ 31 := hchecked.2.2.2.2.2
  rw [createdGateway, if_pos hchecked, gatewayCreate, if_pos hsize, newGateway]
  simp only [hengines, if_true]
  congr 2
  funext policy
  cases policy <;> rfl

section Creation

variable {pre : List (ℕ × GatewayBlock)}

theorem spec_manifestCacheCreate (cacheSucceeds entriesSucceeds : Bool) (maxEntries : ℕ) :
    Spec pre (InMemory.manifestCacheCreate cacheSucceeds entriesSucceeds maxEntries) fun p owned =>
      (cacheSucceeds ∧ entriesSucceeds ∧ maxEntries < 2 ^ 31) ∧ (∃ cache entries, p = some cache ∧
        owned = (entries, .entries (List.replicate maxEntries CacheEntry.zero)) ::
          (cache, .cache ⟨entries, maxEntries, 0⟩) :: pre) ∨
      ¬ (cacheSucceeds ∧ entriesSucceeds ∧ maxEntries < 2 ^ 31) ∧ p = none ∧ owned = pre := by
  cases cacheSucceeds
  · exact Returns.bind (returns_malloc_false _)
      (Spec.pure (.inr ⟨fun h => Bool.false_ne_true h.1, rfl, rfl⟩))
  · refine Spec.bind_malloc fun cache => ?_
    cases hentries : entriesSucceeds && decide (maxEntries < 2 ^ 31)
    · refine Returns.bind (returns_malloc_false _) ?_
      refine Returns.bind (returns_free (List.Perm.refl _)) (Spec.pure (.inr ⟨?_, rfl, rfl⟩))
      rintro ⟨-, h, hmax⟩
      rw [h, decide_eq_true hmax] at hentries
      cases hentries
    · refine Spec.bind_malloc fun entries => ?_
      refine Returns.bind (returns_store_middle [_] _) (Spec.pure (.inl ⟨⟨rfl, ?_⟩, ?_⟩))
      · simpa using hentries
      · exact ⟨cache, entries, rfl, rfl⟩

/-- The blocks in the order of their allocation. -/
theorem perm_createdBlocks {β : Type} (batch e₁ e₂ e₃ e₄ : List β)
    (entries cache router placement gateway : β) :
    (batch ++ (e₄ ++ (e₃ ++ (e₂ ++ (e₁ ++ [entries, cache, router, placement, gateway]))))).Perm
      (gateway :: placement :: cache :: entries ::
        (batch ++ router :: (e₁ ++ (e₂ ++ (e₃ ++ (e₄ ++ [])))))) := by
  classical
  refine List.perm_iff_count.mpr fun x => ?_
  simp only [List.count_append, List.count_cons, List.count_nil]
  omega

/-- The blocks in the order of their release. -/
theorem perm_releasedBlocks {β : Type} (batch engines : List β)
    (entries cache router placement gateway : β) :
    (gateway :: placement :: cache :: entries :: (batch ++ router :: engines)).Perm
      (engines ++ (batch ++ [entries, cache, router, placement, gateway])) := by
  classical
  refine List.perm_iff_count.mpr fun x => ?_
  simp only [List.count_append, List.count_cons, List.count_nil]
  omega

/-- The parts that are not checked. -/
theorem spec_createUnchecked (allocs : CreateAllocs) (config : GatewayConfig)
    (fakeSegment : UInt64) (gateway placement router cache entries : ℕ) (zero : GatewayBlock) :
    Spec [(entries, .entries (List.replicate config.cacheSize CacheEntry.zero)),
        (cache, .cache ⟨entries, config.cacheSize, 0⟩), (router, .router),
        (placement, .placement placementEngineCreate), (gateway, zero)]
      (InMemory.createUnchecked allocs config gateway placement router cache) fun p owned =>
        ∃ a, p = a.gateway ∧ owned = gatewayBlocks a (newGateway allocs config fakeSegment) ∧
          a.manifests.isSome = allocs.manifests := by
  rw [InMemory.createUnchecked, ← slots_const, ← slots_const]
  refine Spec.bind (spec_erasureCodingEngineCreate (allocs.engines .replication2x) 1 1) ?_
  rintro _ _ ⟨addr₁, rfl, rfl⟩
  refine Spec.bind (spec_erasureCodingEngineCreate (allocs.engines .replication3x) 1 2) ?_
  rintro _ _ ⟨addr₂, rfl, rfl⟩
  refine Spec.bind (spec_erasureCodingEngineCreate (allocs.engines .sixPlusThree) 6 3) ?_
  rintro _ _ ⟨addr₃, rfl, rfl⟩
  refine Spec.bind (spec_erasureCodingEngineCreate (allocs.engines .tenPlusFour) 10 4) ?_
  rintro _ _ ⟨addr₄, rfl, rfl⟩
  refine Spec.bind (spec_malloc allocs.manifests _) ?_
  rintro manifests _ ⟨hmanifests, rfl⟩
  refine Returns.bind (returns_store _ (perm_createdBlocks _ _ _ _ _ _ _ _ _ _)) (Spec.pure ?_)
  let a : GatewayAddrs :=
    { gateway, placement, router, cache, entries, manifests
      engines := fun
        | .replication2x => addr₁
        | .replication3x => addr₂
        | .sixPlusThree => addr₃
        | .tenPlusFour => addr₄ }
  refine ⟨a, rfl, ?_, hmanifests⟩
  refine congrArg₂ List.cons
    (congrArg (fun record => (gateway, GatewayBlock.gateway record)) ?_) rfl
  refine congrArg (fun engines => GatewayRecord.mk config placement router cache engines manifests
    0 64) ?_
  funext policy
  cases policy <;> rfl

/-- **Creation.** The gateway is created with all its parts, or nothing is left. -/
theorem spec_gatewayCreate (allocs : CreateAllocs) (config : GatewayConfig) (fakeSegment : UInt64) :
    Spec [] (InMemory.gatewayCreate allocs config) fun p owned =>
      allocs.Checked config ∧ (∃ a, p = some a.gateway ∧
        owned = gatewayBlocks a (newGateway allocs config fakeSegment) ∧
        a.manifests.isSome = allocs.manifests) ∨
      ¬ allocs.Checked config ∧ p = none ∧ owned = [] := by
  rw [InMemory.gatewayCreate, CreateAllocs.Checked]
  cases allocs.gateway
  · exact Returns.bind (returns_malloc_false _)
      (Spec.pure (.inr ⟨fun h => Bool.false_ne_true h.1, rfl, rfl⟩))
  refine Spec.bind_malloc fun gateway => ?_
  cases allocs.placement
  · refine Returns.bind (returns_malloc_false _) ?_
    refine Returns.bind (returns_free (List.Perm.refl _)) ?_
    exact Spec.pure (.inr ⟨fun h => Bool.false_ne_true h.2.1, rfl, rfl⟩)
  refine Spec.bind_malloc fun placement => ?_
  cases allocs.router
  · refine Returns.bind (returns_malloc_false _) ?_
    refine Returns.bind (returns_free (List.Perm.refl _)) ?_
    refine Returns.bind (returns_free (List.Perm.refl _)) ?_
    exact Spec.pure (.inr ⟨fun h => Bool.false_ne_true h.2.2.1, rfl, rfl⟩)
  refine Spec.bind_malloc fun router => ?_
  refine Spec.bind (spec_manifestCacheCreate allocs.cache allocs.entries config.cacheSize) ?_
  rintro _ _ (⟨hcache, cache, entries, rfl, rfl⟩ | ⟨hcache, rfl, rfl⟩)
  · refine Spec.bind (spec_createUnchecked allocs config fakeSegment gateway placement router cache
      entries _) ?_
    rintro _ _ ⟨a, rfl, rfl, hmanifests⟩
    exact Spec.pure (.inl ⟨⟨rfl, rfl, rfl, hcache⟩, a, rfl, rfl, hmanifests⟩)
  · refine Returns.bind (returns_free (List.Perm.refl _)) ?_
    refine Returns.bind (returns_free (List.Perm.refl _)) ?_
    refine Returns.bind (returns_free (List.Perm.refl _)) ?_
    exact Spec.pure (.inr ⟨fun h => hcache h.2.2.2, rfl, rfl⟩)

end Creation

/-- The engines that are there are destroyed. -/
theorem returns_destroyEngines {pre : List (ℕ × GatewayBlock)} (a : GatewayAddrs)
    (g : GatewayState) (policies : List ErasureCodingPolicy) :
    Returns (policies.flatMap (a.engineBlocks g) ++ pre)
      (policies.forM fun policy => InMemory.erasureCodingEngineDestroy
        ((a.record g).erasureCodingEngines policy)) () pre := by
  induction policies with
  | nil => exact Spec.pure ⟨rfl, rfl⟩
  | cons policy policies ih =>
    rw [List.flatMap_cons, List.append_assoc, List.forM_eq_forM, List.forM_cons]
    exact Returns.bind (returns_erasureCodingEngineDestroy _ _) ih

theorem returns_manifestCacheDestroy {pre : List (ℕ × GatewayBlock)} (cache entries : ℕ)
    (contents : ManifestCache) :
    Returns ((entries, .entries (slots contents.entries contents.capacity)) ::
        (cache, .cache ⟨entries, contents.capacity, contents.count⟩) :: pre)
      (InMemory.manifestCacheDestroy cache) () pre := by
  refine Returns.bind (returns_load (List.mem_cons_of_mem _ List.mem_cons_self) rfl) ?_
  refine Returns.bind (returns_free (List.Perm.refl _)) ?_
  exact returns_free (List.Perm.refl _)

/-- **Destruction.** All parts of a gateway are released. -/
theorem returns_gatewayDestroy (a : GatewayAddrs) (g : GatewayState) :
    Returns (gatewayBlocks a g) (InMemory.gatewayDestroy a.gateway) () [] := by
  refine Returns.bind returns_loadGateway ?_
  refine Spec.of_perm ?_ (perm_releasedBlocks _ _ _ _ _ _ _)
  refine Returns.bind (returns_destroyEngines a g InMemory.policies) ?_
  refine Returns.bind ((returns_free_pointer a.manifests _).frame _) ?_
  refine Returns.bind (returns_manifestCacheDestroy a.cache a.entries g.cache) ?_
  refine Returns.bind (returns_free (List.Perm.refl _)) ?_
  refine Returns.bind (returns_free (List.Perm.refl _)) ?_
  exact returns_free (List.Perm.refl _)

/-- The calls of a gateway and its destruction leave the data of the gets. -/
theorem spec_callsAndDestroy {a : GatewayAddrs} {g : GatewayState} (hsound : a.Sound g)
    {ops : List GatewayOp} (hdefined : DefinedCalls a.manifests.isSome g ops) :
    Spec (gatewayBlocks a g) (do
      let seen ← makeCalls a.gateway g.fakeSegment ops
      InMemory.gatewayDestroy a.gateway
      return some seen) fun seen owned =>
        seen = some (gatewayMachine.results g ops, routed g ops) ∧
        owned.map Prod.snd = (gatewayMachine.results g ops).flatMap (·.handedOut) := by
  refine Spec.bind (spec_makeCalls hsound hdefined) ?_
  rintro _ _ ⟨rfl, handed, rfl, hhanded⟩
  exact Returns.bind ((returns_gatewayDestroy a _).frame handed) (Spec.pure ⟨rfl, hhanded⟩)

/-- A new gateway is sound. -/
theorem sound_newGateway {allocs : CreateAllocs} {config : GatewayConfig} {fakeSegment : UInt64}
    (hsize : config.cacheSize ≤ 2 ^ 30) (a : GatewayAddrs) :
    a.Sound (newGateway allocs config fakeSegment) where
  wellFormed := manifestCacheCreate_wellFormed config.one_le_cacheSize
  capacity_le := hsize
  room _ := Nat.zero_lt_succ 63

/-! ### The result -/

/-- **The life of a gateway.** For all outcomes of the allocations and all calls, from the creation
of a gateway with a cache of at most `2 ^ 30` entries to its destruction: the behaviour is undefined
if and only if the gateway is created and a get, a delete or an accepted put has names whose hash
overflows an `int`, or a put is accepted without the array of the batch. Otherwise the callers see
what they see in the model without memory, the router is given the same fragments, and in the end
only the data of the gets are allocated, which belong to their callers. -/
theorem gateway_lifetime (allocs : CreateAllocs) {config : GatewayConfig}
    (hsize : config.cacheSize ≤ 2 ^ 30) (fakeSegment : UInt64) (ops : List GatewayOp) :
    (lifetime allocs config fakeSegment ops .empty = none ↔
      ∃ g, createdGateway allocs config fakeSegment = some g ∧
        ¬ DefinedCalls allocs.manifests g ops) ∧
    ∀ seen h, lifetime allocs config fakeSegment ops .empty = some (seen, h) →
      seen = (createdGateway allocs config fakeSegment).map
        (fun g => (gatewayMachine.results g ops, routed g ops)) ∧
      ∃ handed, h.Holds handed ∧ handed.map Prod.snd =
        (seen.elim [] Prod.fst).flatMap (·.handedOut) := by
  obtain ⟨p, h₁, _, hrun, hcreate, hh₁⟩ :=
    (spec_gatewayCreate allocs config fakeSegment).exists_run Heap.Holds.empty
  rw [lifetime, run_bind hrun]
  rcases hcreate with ⟨hchecked, a, rfl, rfl, hmanifests⟩ | ⟨hchecked, rfl, rfl⟩
  · have hcreated : createdGateway allocs config fakeSegment =
        some (newGateway allocs config fakeSegment) := if_pos hchecked
    have hsound : a.Sound (newGateway allocs config fakeSegment) := sound_newGateway hsize a
    have hstart : (newGateway allocs config fakeSegment).fakeSegment = fakeSegment := rfl
    rw [hcreated, ← hmanifests]
    dsimp only
    by_cases hdefined :
        DefinedCalls a.manifests.isSome (newGateway allocs config fakeSegment) ops
    · obtain ⟨_, h, handed, hrun₂, ⟨rfl, hhanded⟩, hh⟩ :=
        (spec_callsAndDestroy hsound hdefined).exists_run hh₁
      rw [hstart] at hrun₂
      rw [hrun₂]
      refine ⟨iff_of_false (by rintro ⟨⟩) ?_, ?_⟩
      · rintro ⟨_, ⟨⟩, hundefined⟩
        exact hundefined hdefined
      · rintro _ _ ⟨⟩
        exact ⟨rfl, handed, hh, hhanded⟩
    · have hfails := fails_makeCalls hsound hdefined
      rw [hstart] at hfails
      rw [run_bind_none (hfails.run hh₁)]
      exact ⟨iff_of_true rfl ⟨_, rfl, hdefined⟩, by rintro _ _ ⟨⟩⟩
  · have hcreated : createdGateway allocs config fakeSegment = none := if_neg hchecked
    rw [hcreated]
    refine ⟨iff_of_false (by rintro ⟨⟩) (by rintro ⟨_, ⟨⟩, _⟩), ?_⟩
    rintro _ _ ⟨⟩
    exact ⟨rfl, [], hh₁, rfl⟩

/-- All allocations succeed. -/
def allAllocated : CreateAllocs := ⟨true, true, true, true, true, fun _ => (true, true), true⟩

/-- Two nodes, a put of one byte and a get of it. -/
def putAndGet : List GatewayOp :=
  putThroughFirst.map Prod.snd ++ [.get true (.ofString "b") (.ofString "k")]

/-- With a cache of two entries the put and the get are answered, and the one byte of the get is
left; a delete with the names of the tests of the cache has undefined behaviour. -/
theorem gateway_lifetime_putAndGet :
    tinyConfig.cacheSize ≤ 2 ^ 30 ∧
    (∃ seen h, lifetime allAllocated tinyConfig 0 putAndGet .empty = some (seen, h) ∧
      ∃ handed, h.Holds handed ∧ handed.map Prod.snd = [.bytes [0]]) ∧
    lifetime allAllocated tinyConfig 0
      [.delete (.ofString "testbucket") (.ofString "testkey")] .empty = none := by
  have hsize : tinyConfig.cacheSize ≤ 2 ^ 30 := by decide
  refine ⟨hsize, ?_, ?_⟩
  · obtain ⟨hnone, hsome⟩ := gateway_lifetime allAllocated hsize 0 putAndGet
    cases hrun : lifetime allAllocated tinyConfig 0 putAndGet .empty with
    | none =>
      obtain ⟨g, -, hundefined⟩ := hnone.mp hrun
      have hnames : NamesInInt ⟨[98], by decide⟩ ⟨[107], by decide⟩ :=
        (namesInInt_iff_isSome (show (1 : ℤ) ≤ 2 by decide)).mpr (by decide)
      exact absurd ⟨trivial, trivial, fun _ => ⟨hnames, rfl⟩, hnames, trivial⟩ hundefined
    | some r =>
      obtain ⟨hseen, handed, hh, hhanded⟩ := hsome r.1 r.2 hrun
      refine ⟨r.1, r.2, rfl, handed, hh, hhanded.trans ?_⟩
      rw [hseen]
      rfl
  · refine (gateway_lifetime allAllocated hsize 0 _).1.mpr ⟨_, rfl, fun hdefined => ?_⟩
    have hsome := (namesInInt_iff_isSome (show (1 : ℤ) ≤ 100 by decide)).mp hdefined.1
    revert hsome
    decide

end LightFS.Gateway
