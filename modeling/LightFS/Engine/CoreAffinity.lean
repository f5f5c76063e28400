import Mathlib.Data.Finset.Card
import Mathlib.Data.List.Nodup
import LightFS.Engine.JsonValues
import LightFS.Library.Checks

/-!
# Cores of the storage server

The configuration (`load_config` in `src/engine/src/config.c`) gives a core to each shard, to the
background thread and to the RPC thread. Started without `-m`, `main`
(`src/storage_server/storage_server.c`) builds the reactor mask from the cores of the shards and the
background thread, and the engine (`validate_core_affinity` in `src/engine/src/storage_engine.c`)
then asks for two cores more than there are shards. The core of the RPC thread is not in the mask,
so there is always one core too few (`autoCoreMask_rejected`), with RPC and without. With the core
of the RPC thread in it the mask would pass (`validateCoreAffinity_insert_rpc`).

A set of cores is a finite set of numbers; SPDK formats the mask as a text and parses it again. An
error is the text that is logged, and stands for a result other than `0`. The values of the
configuration file are read by functions of SPDK, which can be any. The sections that do not concern
cores are left out.

## Main definitions

* `jsonDecodeCoreMap`, `optionalSection`, `loadConfig` — the sections `shard` and `rpc`.
* `Config` — a configuration that was accepted.
* `autoCoreMask`, `reactorMask`, `validateCoreAffinity`.

## Main results

* `validateCoreAffinity_eq_ok_iff`, `validateCoreAffinity_insert_rpc`.
* `autoCoreMask_rejected`, `core_affinity_exact`.
-/

namespace LightFS.Engine

open Library

/-! ### The configuration -/

variable {V : Type}

/-- `spdk_json_decode_int32` into an `int32_t`. -/
def decodeInt (spdk : SpdkJson V) (val : V) : Option ℤ := (spdk.decodeInt32 val).map Int32.toInt

/-- The loop of `json_decode_core_map`. -/
def decodeElements (spdk : SpdkJson V) : ℕ → V → Option (List ℤ)
  | 0, _ => some []
  | count + 1, element => do
    let core ← decodeInt spdk element
    let cores ← decodeElements spdk count (spdk.next element)
    return core :: cores

/-- `json_decode_core_map`. The length is converted to an `int32_t`. -/
def jsonDecodeCoreMap (spdk : SpdkJson V) (val : V) : Option (List ℤ) :=
  let count := (Int32.ofNat (spdk.valLen val)).toInt - 2
  if count ≤ 0 ∨ 64 < count then none
  else decodeElements spdk count.toNat (spdk.arrayFirst val)

/-- `struct json_shard`; the core map is `none` for the null pointer. -/
structure ShardSection where
  numShards : ℤ
  bgCore : ℤ
  coreMap : Option (List ℤ)

/-- The configuration of the shards. Only accepted values can be built. -/
structure ShardConfig where
  numShards : ℕ
  bgCore : ℤ
  coreMap : List ℤ
  /-- `num_shards` is in the range of the layout. -/
  numShards_mem : 1 ≤ numShards ∧ numShards ≤ 64
  /-- `core_map_len` is `num_shards`. -/
  length_coreMap : coreMap.length = numShards

/-- The configuration of RPC, which is that of `struct json_rpc`. -/
structure RpcConfig where
  port : ℤ
  coreIndex : ℤ

/-- `config_t`. -/
structure Config where
  shard : ShardConfig
  rpc : RpcConfig

/-- The cores that a configuration names. -/
def Config.cores (config : Config) : List ℤ :=
  config.shard.coreMap ++ [config.shard.bgCore] ++
    if 0 < config.rpc.port then [config.rpc.coreIndex] else []

/-- `json_shard_decoders`. -/
def jsonShardDecoders (spdk : SpdkJson V) : Decoders V ShardSection :=
  [.field (literal "num_shards") (decodeInt spdk) (fun x s => { s with numShards := x }) true,
    .field (literal "bg_core") (decodeInt spdk) (fun x s => { s with bgCore := x }) true,
    .field (literal "core_map") (jsonDecodeCoreMap spdk) (fun x s => { s with coreMap := some x })
      true]

/-- `json_rpc_decoders`. -/
def jsonRpcDecoders (spdk : SpdkJson V) : Decoders V RpcConfig :=
  [.field (literal "port") (decodeInt spdk) (fun x s => { s with port := x }) true,
    .field (literal "core_index") (decodeInt spdk) (fun x s => { s with coreIndex := x }) true]

/-- A value that is needed, or the text that is logged. -/
def orFail {α : Type*} (message : List UInt8) : Option α → Except (List UInt8) α
  | none => .error message
  | some x => .ok x

/-- A section that may be missing. -/
def optionalSection {σ : Type} (spdk : SpdkJson V) (name : String) (decoders : Decoders V σ)
    (init : σ) (path : CString) (root : V) : Except (List UInt8) (Option σ) :=
  match spdk.find root (literal name) .objectBegin with
  | none => .ok none
  | some v =>
    (orFail (literal "config: invalid " ++ literal name ++ literal " section in " ++ path.bytes)
      (spdk.decodeObject v decoders init)).map some

/-- The checks and the defaults of `load_config` for the shards. -/
def loadShard (numShards bgCore : ℤ) (coreMap : Option (List ℤ)) :
    Except (List UInt8) ShardConfig :=
  if hnum : 1 ≤ numShards ∧ numShards ≤ 64 then
    let coreMap := coreMap.getD ((List.range numShards.toNat).map Int.ofNat)
    if hlen : coreMap.length = numShards then
      .ok {
        numShards := numShards.toNat
        bgCore := if bgCore = 0 then numShards else bgCore
        coreMap
        numShards_mem := by omega
        length_coreMap := by omega }
    else
      .error (literal "config: shard.core_map length (" ++ signedDecimal coreMap.length ++
        literal ") must equal shard.num_shards (" ++ signedDecimal numShards ++ literal ")")
  else .error (literal "config: shard.num_shards must be in 1..64 (mkfs layout)")

/-- The section `shard` in `load_config`, for what was decoded. In a section that is there `0` and
the null pointer mean that a value is not given. -/
def loadShardSection : Option ShardSection → Except (List UInt8) ShardConfig
  | none => loadShard 4 0 none
  | some jsh => loadShard (if jsh.numShards ≠ 0 then jsh.numShards else 4) jsh.bgCore jsh.coreMap

/-- `load_config`. -/
def loadConfig (path : CString) (file : ConfigFile) : Except (List UInt8) Config := do
  let jsh ← optionalSection file.spdk "shard" (jsonShardDecoders file.spdk) ⟨0, 0, none⟩ path
    file.root
  let shard ← loadShardSection jsh
  let rpc ← optionalSection file.spdk "rpc" (jsonRpcDecoders file.spdk) ⟨0, 0⟩ path file.root
  return { shard, rpc := rpc.getD ⟨0, 0⟩ }

/-! ### The mask and its check -/

/-- `struct spdk_cpuset`, as the set of its cores. -/
abbrev Cpuset := Finset ℤ

/-- The mask that `main` builds. -/
def autoCoreMask (config : Config) : Cpuset :=
  insert config.shard.bgCore (config.shard.coreMap.foldl (fun needed core => insert core needed) ∅)

/-- `opts.reactor_mask`, for the mask of the option `-m`, if there is one. -/
def reactorMask (coreMask : Option Cpuset) (config : Config) : Cpuset :=
  coreMask.getD (autoCoreMask config)

/-- The first text of `validate_core_affinity`. -/
def tooFewCores (required numShards count : ℕ) : List UInt8 :=
  literal "Core affinity validation failed: need " ++ decimal required ++
    literal " cores (num_shards=" ++ decimal numShards ++ literal " + 1 bg_thread), " ++
    literal "but reactor_mask only provides " ++ decimal count ++ literal " cores"

/-- `validate_core_affinity`. -/
def validateCoreAffinity (config : Config) (mask : Cpuset) : Except (List UInt8) Unit := do
  let shard := config.shard
  let rpcCore := config.rpc.coreIndex
  check (¬ mask.card < shard.numShards + 2)
    (tooFewCores (shard.numShards + 2) shard.numShards mask.card)
  checkAll (fun (core, i) => check (core ∈ mask)
    (literal "Core affinity validation failed: shard " ++ decimal i ++ literal " requires core " ++
      signedDecimal core ++ literal ", but that core is not in the reactor_mask"))
    shard.coreMap.zipIdx
  check (shard.bgCore ∈ mask)
    (literal "Core affinity validation failed: bg_thread requires core " ++
      signedDecimal shard.bgCore ++ literal ", but that core is not in the reactor_mask")
  checkAll (fun (core, i) => do
      check (core ≠ shard.bgCore)
        (literal "Core affinity validation failed: shard " ++ decimal i ++
          literal " and bg_thread both assigned to core " ++ signedDecimal shard.bgCore ++
          literal " (duplicate)")
      checkAll (fun (core', j) => check (core ≠ core')
        (literal "Core affinity validation failed: shard " ++ decimal i ++ literal " and shard " ++
          decimal j ++ literal " both assigned to core " ++ signedDecimal core ++
          literal " (duplicate)"))
        (shard.coreMap.zipIdx.drop (i + 1)))
    shard.coreMap.zipIdx
  if 0 < config.rpc.port then
    check (rpcCore ∈ mask)
      (literal "RPC core " ++ signedDecimal rpcCore ++ literal " not in reactor mask")
    checkAll (fun (core, i) => check (core ≠ rpcCore)
      (literal "RPC core " ++ signedDecimal rpcCore ++ literal " conflicts with shard " ++
        decimal i))
      shard.coreMap.zipIdx
    check (shard.bgCore ≠ rpcCore)
      (literal "RPC core " ++ signedDecimal rpcCore ++ literal " conflicts with bg core")

/-! ### The check -/

variable {config : Config} {mask : Cpuset}

/-- Checks of the cores of the shards do not depend on their places. -/
theorem forall_mem_zipIdx_iff {P : ℤ → Prop} {l : List ℤ} :
    (∀ entry ∈ l.zipIdx, P entry.1) ↔ ∀ core ∈ l, P core := by
  rw [← List.forall_mem_map (f := Prod.fst), List.zipIdx_map_fst]

theorem nodup_append_singleton_iff {l : List ℤ} {core : ℤ} :
    (l ++ [core]).Nodup ↔ l.Nodup ∧ ∀ other ∈ l, other ≠ core := by
  rw [List.nodup_append]
  simp only [List.nodup_singleton, true_and, List.forall_mem_singleton]

/-- **When the check passes.** The mask has the cores of the shards, of the background thread and,
with RPC, of the RPC thread; these are different, and the mask has at least two cores more than
there are shards. -/
theorem validateCoreAffinity_eq_ok_iff :
    validateCoreAffinity config mask = .ok () ↔
      config.shard.numShards + 2 ≤ mask.card ∧ (∀ core ∈ config.cores, core ∈ mask) ∧
        config.cores.Nodup := by
  rw [validateCoreAffinity]
  simp only [bind_eq_ok_iff, check_eq_ok_iff, checkAll_eq_ok_iff, forall_and]
  have hmask := forall_mem_zipIdx_iff (P := (· ∈ mask)) (l := config.shard.coreMap)
  have hbg := forall_mem_zipIdx_iff (P := (· ≠ config.shard.bgCore)) (l := config.shard.coreMap)
  have hpairs : (∀ entry ∈ config.shard.coreMap.zipIdx,
      ∀ later ∈ config.shard.coreMap.zipIdx.drop (entry.2 + 1), entry.1 ≠ later.1) ↔
        config.shard.coreMap.Nodup := forall_mem_zipIdx_drop_iff
  by_cases hport : 0 < config.rpc.port
  · have hrpc := forall_mem_zipIdx_iff (P := (· ≠ config.rpc.coreIndex))
      (l := config.shard.coreMap)
    rw [if_pos hport, Config.cores, if_pos hport]
    simp only [bind_eq_ok_iff, check_eq_ok_iff, checkAll_eq_ok_iff]
    rw [hmask, hbg, hpairs, hrpc, nodup_append_singleton_iff, nodup_append_singleton_iff]
    simp only [List.forall_mem_append, List.forall_mem_singleton, Nat.not_lt]
    constructor
    · rintro ⟨hcount, hcores, hbgCore, ⟨hne, hnodup⟩, hrpcCore, hneRpc, hbgRpc⟩
      exact ⟨hcount, ⟨⟨hcores, hbgCore⟩, hrpcCore⟩, ⟨hnodup, hne⟩, hneRpc, hbgRpc⟩
    · rintro ⟨hcount, ⟨⟨hcores, hbgCore⟩, hrpcCore⟩, ⟨hnodup, hne⟩, hneRpc, hbgRpc⟩
      exact ⟨hcount, hcores, hbgCore, ⟨hne, hnodup⟩, hrpcCore, hneRpc, hbgRpc⟩
  · rw [if_neg hport, Config.cores, if_neg hport, List.append_nil, hmask, hbg, hpairs,
      nodup_append_singleton_iff]
    simp only [List.forall_mem_append, List.forall_mem_singleton, Nat.not_lt]
    constructor
    · rintro ⟨hcount, hcores, hbgCore, ⟨hne, hnodup⟩, -⟩
      exact ⟨hcount, ⟨hcores, hbgCore⟩, hnodup, hne⟩
    · rintro ⟨hcount, ⟨hcores, hbgCore⟩, hnodup, hne⟩
      exact ⟨hcount, hcores, hbgCore, ⟨hne, hnodup⟩, rfl⟩

/-! ### The mask -/

theorem foldl_insert (cores : List ℤ) (mask : Cpuset) :
    cores.foldl (fun needed core => insert core needed) mask = mask ∪ cores.toFinset := by
  induction cores generalizing mask with
  | nil => exact (Finset.union_empty mask).symm
  | cons core cores ih =>
    rw [List.foldl_cons, ih, List.toFinset_cons, Finset.insert_union, Finset.union_insert]

/-- The cores in the mask: those of the shards and of the background thread. -/
theorem autoCoreMask_eq (config : Config) :
    autoCoreMask config = (config.shard.coreMap ++ [config.shard.bgCore]).toFinset := by
  ext core
  rw [autoCoreMask, foldl_insert, Finset.empty_union, Finset.mem_insert, List.mem_toFinset,
    List.mem_toFinset, List.mem_append, List.mem_singleton, or_comm]

/-- The mask has one core more than there are shards. -/
theorem card_autoCoreMask (hcores : config.cores.Nodup) :
    (autoCoreMask config).card = config.shard.numShards + 1 := by
  have hnodup : (config.shard.coreMap ++ [config.shard.bgCore]).Nodup :=
    hcores.sublist (List.sublist_append_left _ _)
  rw [autoCoreMask_eq, List.toFinset_card_of_nodup hnodup, List.length_append,
    config.shard.length_coreMap, List.length_singleton]

/-- With the core of the RPC thread the mask passes the check. -/
theorem validateCoreAffinity_insert_rpc (hport : 0 < config.rpc.port)
    (hcores : config.cores.Nodup) :
    validateCoreAffinity config (insert config.rpc.coreIndex (autoCoreMask config)) = .ok () := by
  have hrpc : config.cores = config.shard.coreMap ++ [config.shard.bgCore] ++
      [config.rpc.coreIndex] := by
    rw [Config.cores, if_pos hport]
  have hnew : config.rpc.coreIndex ∉ autoCoreMask config := by
    rw [autoCoreMask_eq, List.mem_toFinset]
    rw [hrpc] at hcores
    exact fun hmem => List.disjoint_of_nodup_append hcores hmem (List.mem_singleton_self _)
  refine validateCoreAffinity_eq_ok_iff.mpr ⟨?_, fun core hcore => ?_, hcores⟩
  · rw [Finset.card_insert_of_notMem hnew, card_autoCoreMask hcores]
  · rw [hrpc, List.mem_append, List.mem_singleton] at hcore
    rw [Finset.mem_insert, autoCoreMask_eq, List.mem_toFinset]
    exact hcore.symm

/-- **The mask that `main` builds is rejected.** For every configuration file that `load_config`
accepts and whose cores are different, when the server is started without `-m`,
`validate_core_affinity` finds one core too few. -/
theorem autoCoreMask_rejected (path : CString) (file : ConfigFile) :
    ∀ config, loadConfig path file = .ok config → config.cores.Nodup →
      validateCoreAffinity config (reactorMask none config) =
        .error (tooFewCores (config.shard.numShards + 2) config.shard.numShards
          (config.shard.numShards + 1)) := by
  -- what is needed of `load_config`, the length of `core_map`, is a field of the configuration
  rintro config - hcores
  have hcard : (reactorMask none config).card = config.shard.numShards + 1 :=
    card_autoCoreMask hcores
  have hfew : check (¬ (reactorMask none config).card < config.shard.numShards + 2)
      (tooFewCores (config.shard.numShards + 2) config.shard.numShards
        (reactorMask none config).card) =
      .error (tooFewCores (config.shard.numShards + 2) config.shard.numShards
        (config.shard.numShards + 1)) := by
    rw [check, hcard, if_neg (by omega)]
  rw [validateCoreAffinity]
  dsimp only
  rw [hfew]
  rfl

/-- The sections of the configuration file in `src/engine/conf`: 4 shards, and RPC on core 5. -/
def shippedConfig : ConfigFile :=
  treeFile [(literal "shard", .object [(literal "num_shards", .int 4)]),
    (literal "rpc", .object [(literal "port", .int 8080), (literal "core_index", .int 5)])]

/-- It is accepted, its cores are different and the server does not start with it. -/
theorem autoCoreMask_rejected_shipped :
    ∃ config, loadConfig (.ofString "./conf/config.json") shippedConfig = .ok config ∧
      config.cores.Nodup ∧
      validateCoreAffinity config (reactorMask none config) = .error (tooFewCores 6 4 5) := by
  have hcores : ([0, 1, 2, 3, 4, 5] : List ℤ).Nodup := by decide
  exact ⟨_, rfl, hcores, autoCoreMask_rejected (.ofString "./conf/config.json") shippedConfig _
    rfl hcores⟩

/-- For this file: the mask is that of the cores 0 to 4, and the engine asks for 6 cores. -/
theorem shippedConfig_rejected :
    ∃ config, loadConfig (.ofString "./conf/config.json") shippedConfig = .ok config ∧
      config.cores = [0, 1, 2, 3, 4, 5] ∧ reactorMask none config = {0, 1, 2, 3, 4} ∧
      validateCoreAffinity config (reactorMask none config) = .error (tooFewCores 6 4 5) :=
  ⟨_, rfl, rfl, by decide, rfl⟩

/-! ### The check, core by core -/

/-- **The check is exact.** For every configuration file that `load_config` accepts and every mask,
`validate_core_affinity` passes just when the mask is large enough and has the cores of the shards
and of the background thread, these are different, and with RPC the core of the RPC thread is in the
mask and different from all of them. -/
theorem core_affinity_exact (path : CString) (file : ConfigFile) (mask : Cpuset) :
    ∀ config, loadConfig path file = .ok config →
      (validateCoreAffinity config mask = .ok () ↔
        config.shard.numShards + 2 ≤ mask.card ∧
        (∀ core ∈ config.shard.coreMap, core ∈ mask) ∧ config.shard.bgCore ∈ mask ∧
        config.shard.coreMap.Nodup ∧ (∀ core ∈ config.shard.coreMap, core ≠ config.shard.bgCore) ∧
        (0 < config.rpc.port → config.rpc.coreIndex ∈ mask ∧
          (∀ core ∈ config.shard.coreMap, core ≠ config.rpc.coreIndex) ∧
          config.shard.bgCore ≠ config.rpc.coreIndex)) := by
  rintro config -
  rw [validateCoreAffinity_eq_ok_iff, Config.cores]
  by_cases hport : 0 < config.rpc.port
  · rw [if_pos hport, nodup_append_singleton_iff, nodup_append_singleton_iff]
    simp only [hport, true_implies, List.forall_mem_append, List.forall_mem_singleton]
    constructor
    · rintro ⟨hcount, ⟨⟨hcores, hbg⟩, hrpc⟩, ⟨hnodup, hne⟩, hneRpc, hbgRpc⟩
      exact ⟨hcount, hcores, hbg, hnodup, hne, hrpc, hneRpc, hbgRpc⟩
    · rintro ⟨hcount, hcores, hbg, hnodup, hne, hrpc, hneRpc, hbgRpc⟩
      exact ⟨hcount, ⟨⟨hcores, hbg⟩, hrpc⟩, ⟨hnodup, hne⟩, hneRpc, hbgRpc⟩
  · rw [if_neg hport, List.append_nil, nodup_append_singleton_iff]
    simp only [hport, false_implies, and_true, List.forall_mem_append, List.forall_mem_singleton]
    constructor
    · rintro ⟨hcount, ⟨hcores, hbg⟩, hnodup, hne⟩
      exact ⟨hcount, hcores, hbg, hnodup, hne⟩
    · rintro ⟨hcount, hcores, hbg, hnodup, hne⟩
      exact ⟨hcount, ⟨hcores, hbg⟩, hnodup, hne⟩

/-- The shipped configuration passes with the cores 0 to 5. -/
theorem core_affinity_exact_shipped :
    ∃ config, loadConfig (.ofString "./conf/config.json") shippedConfig = .ok config ∧
      validateCoreAffinity config {0, 1, 2, 3, 4, 5} = .ok () :=
  ⟨_, rfl, (core_affinity_exact (.ofString "./conf/config.json") shippedConfig
    {0, 1, 2, 3, 4, 5} _ rfl).mpr (by decide)⟩

end LightFS.Engine
