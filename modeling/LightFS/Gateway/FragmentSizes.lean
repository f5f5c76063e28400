import LightFS.Gateway.ErasureDecoding
import LightFS.Gateway.MetaBatch

/-!
# The sizes of the fragments a put sends

A put hands its fragments to the router with their sizes in 32 bits, while the encoder computes
them in 64. The size of a fragment is a multiple of 64, so the largest that is kept is
`2 ^ 32 - 64`, and the largest object is `k` times that, for the number `k` of data fragments of
its policy (`put_fragment_sizes_iff`).

## Main results

* `erasureCodingEngines_run` — the engines of a gateway are those of the policies.
* `put_fragment_sizes_iff`.
-/

namespace LightFS.Gateway

open Library Meta

/-! ### The engines of a gateway -/

/-- The engine of a policy. -/
def engineOfPolicy (policy : ErasureCodingPolicy) : Option ErasureCodingEngine :=
  erasureCodingEngineCreate (erasureCodingParamsForPolicy policy).dataFragments
    (erasureCodingParamsForPolicy policy).parityFragments

theorem gatewayCreate_engines {config : GatewayConfig} {fakeSegment : UInt64}
    {gateway : GatewayState} (h : gatewayCreate config fakeSegment = some gateway) :
    gateway.erasureCodingEngines = engineOfPolicy := by
  rw [gatewayCreate] at h
  split_ifs at h
  obtain rfl := Option.some.inj h
  funext policy
  cases policy <;> rfl

/-- No call changes the engines. -/
theorem erasureCodingEngines_step (gateway : GatewayState) (op : GatewayOp) :
    (gatewayMachine.step gateway op).1.erasureCodingEngines = gateway.erasureCodingEngines := by
  cases op with
  | put calloc request => exact (gatewayPutObject_frame calloc gateway request).2.2
  | get | delete | setPolicy | registerNode => rfl

/-- In every gateway that a run reaches, the engines are those of the policies. -/
theorem erasureCodingEngines_run {config : GatewayConfig} {fakeSegment : UInt64}
    {gateway : GatewayState} (h : gatewayCreate config fakeSegment = some gateway)
    (ops : List GatewayOp) :
    (gatewayMachine.run gateway ops).erasureCodingEngines = engineOfPolicy :=
  Machine.run_invariant (P := fun gateway : GatewayState =>
    gateway.erasureCodingEngines = engineOfPolicy)
    (fun gateway op _ hengines => (erasureCodingEngines_step gateway op).trans hengines)
    (gatewayCreate_engines h)

/-! ### Sizes in 32 bits -/

/-- The size of a fragment fits 32 bits exactly for objects up to `k * (2 ^ 32 - 64)` bytes. -/
theorem fragmentSize_lt_iff {n k : ℕ} (hk : 0 < k) (h : SizeFits n k) :
    fragmentSize n k < 2 ^ 32 ↔ n ≤ k * (2 ^ 32 - 64) := by
  obtain ⟨⟨⟨rows, hrows⟩, hroom⟩, hleast⟩ := isLeast_paddedFragmentSize (n := n) hk
  rw [fragmentSize_eq hk h]
  constructor
  · intro hlt
    refine hroom.trans (Nat.mul_le_mul_left k ?_)
    omega
  · intro hle
    have hbound : paddedFragmentSize n k ≤ 2 ^ 32 - 64 := hleast ⟨⟨2 ^ 26 - 1, by norm_num⟩, hle⟩
    omega

/-- What the encoder returns, with the sizes it computed. -/
theorem fragmentSizes_of_encode {calloc : ℕ → Bool} {engine : ErasureCodingEngine}
    {data : List UInt8} {encoded : EncodedFragments}
    (h : erasureCodingEncode calloc engine data = some encoded) :
    encoded.fragments.length = engine.totalFragments ∧
      encoded.fragmentSizes = List.replicate engine.totalFragments
        (fragmentSize data.length engine.dataFragmentCount) := by
  rw [erasureCodingEncode] at h
  split_ifs at h
  obtain rfl := Option.some.inj h
  exact ⟨by rw [List.length_map, List.length_range], rfl⟩

/-- The size fields of the fragments a put sends. -/
theorem sizes_putFragments {targets : List PlacementTarget} {encoded : EncodedFragments} {n F : ℕ}
    (htargets : targets.length = n) (hfragments : encoded.fragments.length = n)
    (hsizes : encoded.fragmentSizes = List.replicate n F) :
    (putFragments targets encoded).map (·.size.toNat) = List.replicate n (F % 2 ^ 32) := by
  refine List.ext_getElem ?_ fun i hi hi' => ?_
  · simp [putFragments, htargets, hfragments, hsizes]
  · simp [putFragments, hsizes]

/-- **The sizes of the fragments a put sends.** In every gateway that a run reaches and for every
put of an object below `2 ^ 63` bytes that reaches the router: the size field of each fragment is
the size the encoder returned for it, and those of the data fragments add up to at least the size
of the object, if and only if the object has at most `k * (2 ^ 32 - 64)` bytes, for the `k` data
fragments of its policy. -/
theorem put_fragment_sizes_iff {config : GatewayConfig} {fakeSegment : UInt64}
    {start : GatewayState} (hcreate : gatewayCreate config fakeSegment = some start)
    (ops : List GatewayOp) (calloc : ℕ → Bool) (request : GatewayPutRequest) (data : List UInt8)
    (engine : ErasureCodingEngine) (fragments : List Fragment)
    (hsent : preparePut calloc (gatewayMachine.run start ops) request =
      some (data, engine, fragments))
    (hsize : data.length < 2 ^ 63) :
    let policy := putPolicy (gatewayMachine.run start ops) request data
    let k := (erasureCodingParamsForPolicy policy).dataFragments
    ∃ encoded, erasureCodingEncode calloc engine data = some encoded ∧
      ((fragments.map (·.size.toNat) = encoded.fragmentSizes ∧
        data.length ≤ ((fragments.take k).map (·.size.toNat)).sum) ↔
      data.length ≤ k * (2 ^ 32 - 64)) := by
  intro policy k
  obtain ⟨-, hengine, targets, encoded, htargets, hencoded, rfl⟩ := preparePut_eq_some hsent
  refine ⟨encoded, hencoded, ?_⟩
  rw [erasureCodingEngines_run hcreate ops] at hengine
  obtain ⟨hadmitted, hdataCount, -⟩ := erasureCodingEngineCreate_eq_some hengine
  have hk : k = engine.dataFragmentCount := (Nat.cast_inj.mp hdataCount).symm
  have hk₂₀ : engine.dataFragmentCount ≤ 20 := (Nat.le_add_right _ _).trans hadmitted.total_le
  have hfits : SizeFits data.length engine.dataFragmentCount := by
    have hdiv := Nat.div_le_self (data.length + engine.dataFragmentCount - 1)
      engine.dataFragmentCount
    exact ⟨by omega, by omega⟩
  obtain ⟨hfragments, hsizes⟩ := fragmentSizes_of_encode hencoded
  have hfields := sizes_putFragments (length_placementSelectTargets htargets) hfragments hsizes
  rw [hk, ← fragmentSize_lt_iff hadmitted.data_pos hfits, List.map_take, hfields, hsizes,
    List.take_replicate, Nat.min_eq_left (Nat.le_add_right _ _), List.sum_replicate_nat]
  have htotal : engine.totalFragments ≠ 0 :=
    (hadmitted.data_pos.trans_le (Nat.le_add_right _ _)).ne'
  constructor
  · rintro ⟨hkept, -⟩
    rw [← (List.replicate_right_inj htotal).mp hkept]
    exact Nat.mod_lt _ (by norm_num)
  · intro hlt
    rw [Nat.mod_eq_of_lt hlt, fragmentSize_eq hadmitted.data_pos hfits]
    exact ⟨rfl, (paddedFragmentSize_bounds hadmitted.data_pos).1⟩

/-- The gateway with its two nodes accepts puts that are replicated once. -/
theorem exists_preparePut_replicated (request : GatewayPutRequest) (data : List UInt8)
    (hdata : request.data = some data)
    (hpolicy : request.erasureCodingPolicyOverride = some .replication2x) :
    ∃ fragments, preparePut (fun _ => true) (gatewayMachine.run smallGateway registerTwoNodes)
      request = some (data, ⟨1, 1, encodeMatrixEntry 1 1⟩, fragments) := by
  have haccepted : PutAccepted (fun _ => true) (gatewayMachine.run smallGateway registerTwoNodes)
      request data ⟨1, 1, encodeMatrixEntry 1 1⟩ := by
    refine ⟨hdata, ?_, Nat.zero_lt_two, le_rfl, fun _ _ => rfl⟩
    rw [putPolicy, hpolicy]
    rfl
  obtain ⟨fragments, hsent, -⟩ := preparePut_eq_some_iff.mpr haccepted
  exact ⟨fragments, hsent⟩

/-- A put of `n` bytes that is replicated once. -/
def replicatedPut (n : ℕ) : GatewayPutRequest :=
  { bucket := .strncpy (.ofString "b")
    key := .strncpy (.ofString "a")
    data := some (List.replicate n 7)
    erasureCodingPolicyOverride := some .replication2x }

theorem put_fragment_sizes_iff_one_byte :
    ∃ engine fragments encoded,
      preparePut (fun _ => true) (gatewayMachine.run smallGateway registerTwoNodes)
        (replicatedPut 1) = some (List.replicate 1 7, engine, fragments) ∧
      erasureCodingEncode (fun _ => true) engine (List.replicate 1 7) = some encoded ∧
      fragments.map (·.size.toNat) = encoded.fragmentSizes := by
  obtain ⟨fragments, hsent⟩ := exists_preparePut_replicated (replicatedPut 1) _ rfl rfl
  obtain ⟨encoded, hencoded, hiff⟩ := put_fragment_sizes_iff gatewayCreate_smallConfig
    registerTwoNodes _ _ _ _ fragments hsent (by simp)
  refine ⟨_, fragments, encoded, hsent, hencoded, (hiff.mpr ?_).1⟩
  exact show 1 ≤ 1 * (2 ^ 32 - 64) by norm_num

/-- An object of `2 ^ 32 - 63` bytes, replicated once: its fragments have `2 ^ 32` bytes, and are
sent with the size zero. -/
theorem put_sends_size_zero :
    ∃ engine fragments encoded,
      preparePut (fun _ => true) (gatewayMachine.run smallGateway registerTwoNodes)
        (replicatedPut (2 ^ 32 - 63)) =
          some (List.replicate (2 ^ 32 - 63) 7, engine, fragments) ∧
      erasureCodingEncode (fun _ => true) engine (List.replicate (2 ^ 32 - 63) 7) =
        some encoded ∧
      encoded.fragmentSizes = [2 ^ 32, 2 ^ 32] ∧ fragments.map (·.size.toNat) = [0, 0] := by
  obtain ⟨fragments, hsent⟩ :=
    exists_preparePut_replicated (replicatedPut (2 ^ 32 - 63)) _ rfl rfl
  obtain ⟨-, -, targets, encoded, htargets, hencoded, rfl⟩ := preparePut_eq_some hsent
  obtain ⟨hfragments, hsizes⟩ := fragmentSizes_of_encode hencoded
  have hfields := sizes_putFragments (length_placementSelectTargets htargets) hfragments hsizes
  rw [List.length_replicate] at hsizes hfields
  exact ⟨_, _, encoded, hsent, hencoded, hsizes, hfields⟩

end LightFS.Gateway
