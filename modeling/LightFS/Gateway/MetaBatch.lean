import LightFS.Gateway.ObjectCalls

/-!
# The batch for the metadata server

Every acknowledged put should leave its manifest in the batch that goes to the metadata server.
The batch holds 64 manifests and nothing drains it; a put that finds it full is acknowledged all
the same and its manifest is dropped.

Along every run the batch holds the first manifests of the acknowledged puts, as many as fit
(`metaBatch_run`); so none is lost exactly when every accepted put of the run finds room
(`metaBatch_keeps_acknowledged_iff`).

## Main definitions

* `acknowledgedBy`, `acknowledged` — the manifests of the puts that returned `0`.
* `RoomForPuts` — every accepted put of a run finds room in the batch.

## Main results

* `metaBatch_run`, `metaBatch_keeps_acknowledged_iff`.
-/

namespace LightFS.Gateway

open Library Meta

/-- The manifest a call on the gateway builds, when it is a put that returns `0`. -/
def acknowledgedBy (gateway : GatewayState) : GatewayOp → Option ObjectManifest
  | .put calloc request =>
    if (gatewayPutObject calloc gateway request).2 = 0 then do
      let data ← request.data
      let engine ← gateway.erasureCodingEngines (putPolicy gateway request data)
      return putManifest gateway request data engine.totalFragments
    else none
  | _ => none

/-- The manifests of the puts of a run that returned `0`, in the order of the calls. -/
def acknowledged : GatewayState → List GatewayOp → List ObjectManifest
  | _, [] => []
  | gateway, op :: ops =>
    (acknowledgedBy gateway op).toList ++ acknowledged (gatewayMachine.step gateway op).1 ops

/-- The call is a put that will be acknowledged. -/
def IsAcceptedPut (gateway : GatewayState) (op : GatewayOp) : Prop :=
  ∃ calloc request data engine, op = .put calloc request ∧
    PutAccepted calloc gateway request data engine

/-- Every put of the run that is accepted finds room in the batch. -/
def RoomForPuts : GatewayState → List GatewayOp → Prop
  | _, [] => True
  | gateway, op :: ops =>
    (IsAcceptedPut gateway op → gateway.metaBatch.count < gateway.metaBatch.capacity) ∧
      RoomForPuts (gatewayMachine.step gateway op).1 ops

/-! ### One call -/

section Step

variable {gateway : GatewayState} {op : GatewayOp}

theorem acknowledgedBy_of_accepted {calloc : ℕ → Bool} {request : GatewayPutRequest}
    {data : List UInt8} {engine : ErasureCodingEngine}
    (h : PutAccepted calloc gateway request data engine) :
    acknowledgedBy gateway (.put calloc request) =
      some (putManifest gateway request data engine.totalFragments) := by
  obtain ⟨fakeSegment, hput⟩ := gatewayPutObject_of_accepted h
  simp [acknowledgedBy, hput, h.1, h.2.1]

/-- What a call does to the batch: it adds the manifest of an acknowledged put. -/
theorem step_metaBatch (gateway : GatewayState) (op : GatewayOp) :
    (∃ manifest, IsAcceptedPut gateway op ∧ acknowledgedBy gateway op = some manifest ∧
      (gatewayMachine.step gateway op).1.metaBatch = gateway.metaBatch.add manifest) ∨
    (¬ IsAcceptedPut gateway op ∧ acknowledgedBy gateway op = none ∧
      (gatewayMachine.step gateway op).1.metaBatch = gateway.metaBatch) := by
  by_cases haccepted : IsAcceptedPut gateway op
  · obtain ⟨calloc, request, data, engine, rfl, h⟩ := haccepted
    obtain ⟨fakeSegment, hput⟩ := gatewayPutObject_of_accepted h
    refine .inl ⟨_, ⟨calloc, request, data, engine, rfl, h⟩, acknowledgedBy_of_accepted h, ?_⟩
    exact congrArg (·.1.metaBatch) hput
  · refine .inr ⟨haccepted, ?_⟩
    cases op with
    | put calloc request =>
      obtain ⟨fakeSegment, hput⟩ := gatewayPutObject_of_not_accepted fun data engine h =>
        haccepted ⟨calloc, request, data, engine, rfl, h⟩
      exact ⟨by simp [acknowledgedBy, hput], congrArg (·.1.metaBatch) hput⟩
    | get calloc bucket key => exact ⟨rfl, rfl⟩
    | delete bucket key => exact ⟨rfl, rfl⟩
    | setPolicy policy => exact ⟨rfl, rfl⟩
    | registerNode nodeId datacenterId rackId hostId freeBytes => exact ⟨rfl, rfl⟩

/-- The places left in the batch. -/
def ManifestBatch.room (batch : ManifestBatch) : ℕ := batch.capacity - batch.count

theorem room_add (batch : ManifestBatch) (manifest : ObjectManifest) :
    (batch.add manifest).room = batch.room - 1 := by
  rw [ManifestBatch.add, ManifestBatch.room]
  split_ifs with h
  · exact Nat.sub_succ _ _
  · rw [ManifestBatch.room, Nat.sub_eq_zero_of_le (not_lt.mp h)]

theorem contents_add (batch : ManifestBatch) (manifest : ObjectManifest) :
    (batch.add manifest).contents = batch.contents ++ [manifest].take batch.room := by
  rw [ManifestBatch.add]
  split_ifs with h
  · obtain ⟨n, hn⟩ := Nat.exists_eq_add_of_lt (Nat.sub_pos_of_lt h)
    rw [ManifestBatch.room, hn, List.take_of_length_le (by simp)]
    exact slots_update_succ batch.manifests batch.count manifest
  · rw [ManifestBatch.room, Nat.sub_eq_zero_of_le (not_lt.mp h), List.take_zero, List.append_nil]

end Step

/-! ### Runs -/

/-- Along a run the batch takes the manifests of the acknowledged puts as long as it has room. -/
theorem metaBatch_run (gateway : GatewayState) (ops : List GatewayOp) :
    (gatewayMachine.run gateway ops).metaBatch.contents =
      gateway.metaBatch.contents ++ (acknowledged gateway ops).take gateway.metaBatch.room := by
  induction ops generalizing gateway with
  | nil => simp [acknowledged]
  | cons op ops ih =>
    rw [Machine.run_cons, ih, acknowledged, List.take_append]
    rcases step_metaBatch gateway op with ⟨manifest, -, hack, hbatch⟩ | ⟨-, hack, hbatch⟩
    · rw [hbatch, hack, contents_add, room_add, List.append_assoc]
      rfl
    · rw [hbatch, hack]
      simp

/-- The accepted puts of a run all find room exactly when no more puts are acknowledged than the
batch has places left. -/
theorem roomForPuts_iff (gateway : GatewayState) (ops : List GatewayOp) :
    RoomForPuts gateway ops ↔ (acknowledged gateway ops).length ≤ gateway.metaBatch.room := by
  induction ops generalizing gateway with
  | nil => simp [RoomForPuts, acknowledged]
  | cons op ops ih =>
    rw [RoomForPuts, ih, acknowledged, List.length_append]
    rcases step_metaBatch gateway op with ⟨manifest, hput, hack, hbatch⟩ | ⟨hput, hack, hbatch⟩
    · rw [hbatch, hack, room_add]
      simp only [hput, true_imp_iff, ManifestBatch.room, Option.toList_some, List.length_singleton]
      omega
    · rw [hbatch, hack]
      simp [hput]

theorem gatewayCreate_metaBatch {config : GatewayConfig} {fakeSegment : UInt64}
    {gateway : GatewayState} (h : gatewayCreate config fakeSegment = some gateway) :
    gateway.metaBatch.contents = [] ∧ gateway.metaBatch.room = 64 := by
  rw [gatewayCreate] at h
  split_ifs at h
  obtain rfl := Option.some.inj h
  exact ⟨rfl, rfl⟩

/-! ### Puts on one gateway -/

/-- A put leaves the configuration, the nodes and the engines as they are. -/
theorem gatewayPutObject_frame (calloc : ℕ → Bool) (gateway : GatewayState)
    (request : GatewayPutRequest) :
    let gateway' := (gatewayPutObject calloc gateway request).1
    gateway'.config = gateway.config ∧ gateway'.placement = gateway.placement ∧
      gateway'.erasureCodingEngines = gateway.erasureCodingEngines := by
  intro gateway'
  by_cases h : ∃ data engine, PutAccepted calloc gateway request data engine
  · obtain ⟨data, engine, haccepted⟩ := h
    obtain ⟨fakeSegment, hput⟩ := gatewayPutObject_of_accepted haccepted
    simp [gateway', hput]
  · obtain ⟨fakeSegment, hput⟩ := gatewayPutObject_of_not_accepted
      fun data engine haccepted => h ⟨data, engine, haccepted⟩
    simp [gateway', hput]

/-- Puts that are accepted are accepted one after the other, each with its own manifest. -/
theorem acknowledged_puts {calloc : ℕ → Bool} {data : List UInt8} (gateway : GatewayState)
    (engine : ErasureCodingEngine) (requests : List GatewayPutRequest)
    (h : ∀ request ∈ requests, PutAccepted calloc gateway request data engine) :
    acknowledged gateway (requests.map (.put calloc)) =
      requests.map fun request => putManifest gateway request data engine.totalFragments := by
  induction requests generalizing gateway with
  | nil => rfl
  | cons request requests ih =>
    obtain ⟨hconfig, hplacement, hengines⟩ := gatewayPutObject_frame calloc gateway request
    have hfirst := acknowledgedBy_of_accepted (h request List.mem_cons_self)
    rw [List.map_cons, acknowledged, hfirst]
    refine congrArg (_ :: ·) ((ih _ fun other hother => ?_).trans ?_)
    · have hother' := h other (List.mem_cons_of_mem _ hother)
      unfold PutAccepted putPolicy selectErasureCodingPolicy at hother' ⊢
      rwa [← hconfig, ← hplacement, ← hengines] at hother'
    · refine List.map_congr_left fun other _ => ?_
      exact congrArg (fun config : GatewayConfig =>
        putManifest { gateway with config := config } other data engine.totalFragments) hconfig

/-! ### The batch of a gateway -/

/-- A configuration with a cache of one hundred manifests. -/
def smallConfig : GatewayConfig :=
  { datacenterId := 1
    defaultErasureCodingPolicy := .replication2x
    defaultReplicationFactor := 2
    manifestCacheSize := 100 }

/-- A gateway of that configuration. -/
def smallGateway : GatewayState := (gatewayCreate smallConfig 0).get rfl

theorem gatewayCreate_smallConfig : gatewayCreate smallConfig 0 = some smallGateway :=
  (Option.some_get rfl).symm

/-- Two nodes are registered. -/
def registerTwoNodes : List GatewayOp :=
  [.registerNode 1 1 1 1 1000000, .registerNode 2 1 1 2 1000000]

/-- A put of one byte under a key of one byte. -/
def oneBytePut (key : UInt8) (hkey : key ≠ 0) : GatewayPutRequest :=
  { bucket := .strncpy ⟨[98], by decide⟩
    key := .strncpy ⟨[key], by simpa using hkey.symm⟩
    data := some [7]
    erasureCodingPolicyOverride := none }

/-- With the two nodes registered, puts of one byte are acknowledged. -/
theorem acknowledged_oneBytePuts (requests : List GatewayPutRequest)
    (h : ∀ request ∈ requests, ∃ key hkey, request = oneBytePut key hkey) :
    acknowledged smallGateway (registerTwoNodes ++ requests.map (.put fun _ => true)) =
      requests.map fun request => putManifest smallGateway request [7] 2 := by
  refine acknowledged_puts (gatewayMachine.run smallGateway registerTwoNodes)
    ⟨1, 1, encodeMatrixEntry 1 1⟩ requests fun request hrequest => ?_
  obtain ⟨key, hkey, rfl⟩ := h request hrequest
  exact ⟨rfl, rfl, Nat.zero_lt_two, le_rfl, fun _ _ => rfl⟩

/-- **The batch for the metadata server.** Along every run of a new gateway, the manifests of the
acknowledged puts are all in the batch, in the order of the calls, exactly when every accepted put
of the run found room in the batch. -/
theorem metaBatch_keeps_acknowledged_iff {config : GatewayConfig} {fakeSegment : UInt64}
    {gateway : GatewayState} (hcreate : gatewayCreate config fakeSegment = some gateway)
    (ops : List GatewayOp) :
    (acknowledged gateway ops).Sublist (gatewayMachine.run gateway ops).metaBatch.contents ↔
      RoomForPuts gateway ops := by
  obtain ⟨hcontents, -⟩ := gatewayCreate_metaBatch hcreate
  rw [roomForPuts_iff, metaBatch_run, hcontents, List.nil_append]
  constructor
  · intro hsub
    exact hsub.length_le.trans (List.length_take_le _ _)
  · intro hlen
    rw [List.take_of_length_le hlen]

/-- Two puts are acknowledged, and both manifests are in the batch in this order. -/
theorem metaBatch_keeps_acknowledged_iff_two_puts :
    let ops := registerTwoNodes ++
      [oneBytePut 97 (by decide), oneBytePut 99 (by decide)].map (.put fun _ => true)
    (acknowledged smallGateway ops).length = 2 ∧
      (acknowledged smallGateway ops).Sublist
        (gatewayMachine.run smallGateway ops).metaBatch.contents := by
  intro ops
  have hacked : acknowledged smallGateway ops = _ := acknowledged_oneBytePuts _ fun request h => by
    rcases List.mem_cons.mp h with h | h
    · exact ⟨97, by decide, h⟩
    · exact ⟨99, by decide, List.mem_singleton.mp h⟩
  have hlength : (acknowledged smallGateway ops).length = 2 := congrArg List.length hacked
  refine ⟨hlength, (metaBatch_keeps_acknowledged_iff gatewayCreate_smallConfig _).mpr ?_⟩
  rw [roomForPuts_iff, hlength]
  decide

/-- Sixty-five puts are acknowledged; the manifest of the last one is not in the batch. -/
theorem metaBatch_drops_manifest :
    let ops := registerTwoNodes ++
      (List.replicate 64 (oneBytePut 97 (by decide)) ++ [oneBytePut 99 (by decide)]).map
        (.put fun _ => true)
    gatewayCreate smallConfig 0 = some smallGateway ∧
      (acknowledged smallGateway ops).length = 65 ∧
      ∃ manifest ∈ acknowledged smallGateway ops,
        manifest ∉ (gatewayMachine.run smallGateway ops).metaBatch.contents := by
  intro ops
  have hacked : acknowledged smallGateway ops = _ := acknowledged_oneBytePuts _ fun request h => by
    rcases List.mem_append.mp h with h | h
    · exact ⟨97, by decide, List.eq_of_mem_replicate h⟩
    · exact ⟨99, by decide, List.mem_singleton.mp h⟩
  refine ⟨gatewayCreate_smallConfig, ?_, putManifest smallGateway (oneBytePut 99 (by decide)) [7] 2,
    ?_, ?_⟩
  · rw [hacked]
    simp
  · rw [hacked]
    simp
  · obtain ⟨hcontents, hroom⟩ := gatewayCreate_metaBatch gatewayCreate_smallConfig
    rw [metaBatch_run, hcontents, hroom, hacked, List.nil_append, List.map_append,
      List.take_append_of_le_length (by simp)]
    intro hmem
    have heq : putManifest smallGateway (oneBytePut 99 (by decide)) [7] 2 =
        putManifest smallGateway (oneBytePut 97 (by decide)) [7] 2 := by
      have hmem' := List.mem_of_mem_take hmem
      rw [List.map_replicate] at hmem'
      exact List.eq_of_mem_replicate hmem'
    have hkey : (99 : UInt8) = 97 :=
      List.head_eq_of_cons_eq (congrArg (fun manifest => manifest.key.bytes) heq)
    exact absurd hkey (by decide)

end LightFS.Gateway
