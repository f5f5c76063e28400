import LightFS.Engine.Mkfs

/-!
# Mounting a volume

`storage_engine_init` (`src/engine/src/storage_engine.c`) loads the configuration, opens the device
and either formats the volume or mounts it. A mount takes the number of shards from the superblock
(`storage_engine_mount_volume`), validates the cores of the configuration and hands both to
`shard_manager_init`, which reads one core for each shard from the core map of the configuration.
The number and the map come from two places and nothing compares them. The cores that are read are
in the map, and the validated ones, if and only if the volume has no more shards than the
configuration (`mount_within_coreMap_iff`).

The device, the superblock and the managers are outside this repository; `InitCalls` gives what
their calls return. Of the superblock the engine reads the number of shards, and of the managers
only whether they were initialized.

## Main definitions

* `storageEngineMountVolume`, `storageEngineInit`.
* `InitRun` — what an initialization does.
-/

namespace LightFS.Engine

open Library

variable {layout : SegmentLayout}

/-- `superblock_v1_t`, as far as the engine reads it. -/
structure Superblock where
  shardMetaNum : UInt32

/-- What the calls of `storage_engine_init` return, with `none` and `false` for a result other
than `0`. -/
structure InitCalls (layout : SegmentLayout) extends FormatCalls layout where
  /-- `init_spdk_bdev`, which completes the section `segment` from the size of the device. -/
  initSpdkBdev : Option SegmentConfig
  allocatorMount : Allocator layout → Option (Allocator layout)
  superblockLoadCurrent : Allocator layout → Option Superblock
  /-- `spdk_app_get_core_mask`. -/
  appGetCoreMask : Cpuset
  shardManagerInit : ℕ → List ℤ → Bool
  shardSubsystemsInit : Superblock → Bool
  shardManagerRecoverOnMount : Bool
  objManagerInit : Bool

/-- `storage_engine_mount_volume`. Returns the number of shards, the superblock and the
allocator. -/
def storageEngineMountVolume (maxShards : ℕ) (calls : InitCalls layout) (a : Allocator layout) :
    Except (List UInt8) (ℕ × Superblock × Allocator layout) := do
  let a ← orError ("mount failed (volume missing or not formatted); " ++
    "use --mkfs to create a new filesystem") (calls.allocatorMount a)
  let sb ← orError "mount: no valid engine superblock; cannot read shard count"
    (calls.superblockLoadCurrent a)
  check (¬ (sb.shardMetaNum.toNat = 0 ∨ maxShards < sb.shardMetaNum.toNat))
    (literal "mount: invalid shard_meta_num " ++ decimal sb.shardMetaNum.toNat ++
      literal " in superblock")
  return (sb.shardMetaNum.toNat, sb, a)

/-- `storage_engine_ctx_t`, as far as `storage_engine_init` reads it. -/
structure EngineContext (layout : SegmentLayout) where
  configFile : CString
  forceMkfs : Bool
  allocator : Allocator layout

/-- What `storage_engine_init` does. -/
structure InitRun where
  /-- The arguments of the call of `shard_manager_init`, if it is made. -/
  shardManagerCall : Option (ℕ × List ℤ)
  /-- `0`, or the text that is logged last. -/
  result : Except (List UInt8) Unit

/-- The mount path of `storage_engine_init` behind the validation of the cores. -/
def startShards (calls : InitCalls layout) (config : Config) (numShards : ℕ) (sb : Superblock) :
    Except (List UInt8) Unit := do
  check (calls.shardManagerInit numShards config.shard.coreMap)
    (literal "Failed to initialize shard manager")
  check (calls.shardSubsystemsInit sb) (literal "Failed to initialize per-shard subsystems")
  check calls.shardManagerRecoverOnMount
    (literal "Failed to recover per-shard state from mount path")
  check calls.objManagerInit (literal "Failed to initialize obj manager")

/-- `storage_engine_init`, with the contents of the configuration file. -/
def storageEngineInit (maxShards : ℕ) (calls : InitCalls layout) (file : ConfigFile)
    (ctx : EngineContext layout) : InitRun :=
  match loadConfig ctx.configFile file with
  | .error _ =>
    ⟨none, .error (literal "Failed to load application config (default ./conf/config.json)")⟩
  | .ok config =>
    match calls.initSpdkBdev with
    | none =>
      ⟨none, .error (literal "init_spdk_bdev failed (segment I/O requires backing bdev)")⟩
    | some segment =>
      if ctx.forceMkfs then
        ⟨none, (storageEngineMkfsVolume calls.toFormatCalls config.shard segment
          ctx.allocator).map fun _ => ()⟩
      else
        match storageEngineMountVolume maxShards calls ctx.allocator with
        | .error message => ⟨none, .error message⟩
        | .ok (numShards, sb, _) =>
          match validateCoreAffinity config calls.appGetCoreMask with
          | .error _ => ⟨none, .error (literal "Core affinity validation failed")⟩
          | .ok () =>
            ⟨some (numShards, config.shard.coreMap), startShards calls config numShards sb⟩

/-! ### The call of the shard manager -/

variable {maxShards : ℕ} {calls : InitCalls layout} {file : ConfigFile}
  {ctx : EngineContext layout} {config : Config} {a : Allocator layout} {sb : Superblock}
  {numShards : ℕ} {coreMap : List ℤ}

/-- A mounted volume has the number of shards of its superblock. -/
theorem eq_of_storageEngineMountVolume {a' : Allocator layout} {sb' : Superblock}
    (hmount : calls.allocatorMount ctx.allocator = some a)
    (hsb : calls.superblockLoadCurrent a = some sb)
    (hok : storageEngineMountVolume maxShards calls ctx.allocator = .ok (numShards, sb', a')) :
    numShards = sb.shardMetaNum.toNat := by
  rw [storageEngineMountVolume, hmount] at hok
  obtain ⟨a₁, ha₁, hok⟩ := exists_of_bind_eq_ok hok
  obtain rfl : a = a₁ := Except.ok.inj ha₁
  rw [hsb] at hok
  obtain ⟨sb₁, hsb₁, hok⟩ := exists_of_bind_eq_ok hok
  obtain rfl : sb = sb₁ := Except.ok.inj hsb₁
  obtain ⟨-, -, hok⟩ := exists_of_bind_eq_ok hok
  exact (congrArg Prod.fst (Except.ok.inj hok)).symm

/-- The shard manager is called with the number of shards of the volume and the core map of a
configuration whose cores were validated. -/
theorem exists_of_shardManagerCall (hload : loadConfig ctx.configFile file = .ok config)
    (hcall : (storageEngineInit maxShards calls file ctx).shardManagerCall =
      some (numShards, coreMap)) :
    coreMap = config.shard.coreMap ∧ validateCoreAffinity config calls.appGetCoreMask = .ok () ∧
      ∃ sb' a', storageEngineMountVolume maxShards calls ctx.allocator =
        .ok (numShards, sb', a') := by
  rw [storageEngineInit, hload] at hcall
  dsimp only at hcall
  split at hcall
  · cases hcall
  split_ifs at hcall
  split at hcall
  · cases hcall
  rename_i hmount
  split at hcall
  · cases hcall
  rename_i hvalid
  obtain ⟨rfl, rfl⟩ := Prod.mk.inj (Option.some.inj hcall)
  exact ⟨rfl, hvalid, _, _, hmount⟩

/-- **Mounting stays in the core map.** When `storage_engine_init` calls `shard_manager_init`, the
cores that it reads are in the core map, in the reactor mask and different if and only if the volume
has no more shards than the configuration. -/
theorem mount_within_coreMap_iff (hload : loadConfig ctx.configFile file = .ok config)
    (hmount : calls.allocatorMount ctx.allocator = some a)
    (hsb : calls.superblockLoadCurrent a = some sb)
    (hcall : (storageEngineInit maxShards calls file ctx).shardManagerCall =
      some (numShards, coreMap)) :
    (numShards ≤ coreMap.length ∧
      (∀ core ∈ coreMap.take numShards, core ∈ calls.appGetCoreMask) ∧
      (coreMap.take numShards).Nodup) ↔
      sb.shardMetaNum.toNat ≤ config.shard.numShards := by
  obtain ⟨rfl, hvalid, sb', a', hvolume⟩ := exists_of_shardManagerCall hload hcall
  obtain rfl := eq_of_storageEngineMountVolume hmount hsb hvolume
  obtain ⟨-, hmask, hnodup⟩ := validateCoreAffinity_eq_ok_iff.mp hvalid
  have hcores : List.Sublist (config.shard.coreMap.take sb.shardMetaNum.toNat) config.cores :=
    List.Sublist.trans (List.take_sublist _ _)
      (List.Sublist.trans (List.sublist_append_left _ _) (List.sublist_append_left _ _))
  rw [config.shard.length_coreMap]
  constructor
  · rintro ⟨hle, -, -⟩
    exact hle
  · intro hle
    exact ⟨hle, fun core hcore => hmask core (hcores.subset hcore), hnodup.sublist hcores⟩

/-- Calls that succeed, for a volume with so many shards and the cores 0 to 5. -/
def smallInitCalls (shardMetaNum : UInt32) : InitCalls smallLayout :=
  { smallCalls with
    initSpdkBdev := some ⟨10, 4096⟩
    allocatorMount := fun a => some a
    superblockLoadCurrent := fun _ => some ⟨shardMetaNum⟩
    appGetCoreMask := {0, 1, 2, 3, 4, 5}
    shardManagerInit := fun _ _ => true
    shardSubsystemsInit := fun _ => true
    shardManagerRecoverOnMount := true
    objManagerInit := true }

/-- A start without `--mkfs`. -/
def shippedContext : EngineContext smallLayout where
  configFile := .ofString "./conf/config.json"
  forceMkfs := false
  allocator := smallAllocator 0 0

/-- The shipped configuration and a volume of 4 shards. -/
theorem mount_within_coreMap_iff_shipped :
    (storageEngineInit 64 (smallInitCalls 4) shippedConfig shippedContext).shardManagerCall =
      some (4, [0, 1, 2, 3]) ∧
    4 ≤ ([0, 1, 2, 3] : List ℤ).length ∧
    (∀ core ∈ ([0, 1, 2, 3] : List ℤ).take 4, core ∈ (smallInitCalls 4).appGetCoreMask) ∧
    (([0, 1, 2, 3] : List ℤ).take 4).Nodup := by
  have hcall : (storageEngineInit 64 (smallInitCalls 4) shippedConfig
    shippedContext).shardManagerCall = some (4, [0, 1, 2, 3]) := rfl
  have hload : loadConfig shippedContext.configFile shippedConfig = .ok _ := rfl
  have hmount : (smallInitCalls 4).allocatorMount shippedContext.allocator = some _ := rfl
  have hsb : (smallInitCalls 4).superblockLoadCurrent (smallAllocator 0 0) = some ⟨4⟩ := rfl
  exact ⟨hcall, (mount_within_coreMap_iff hload hmount hsb hcall).mpr (Nat.le_refl 4)⟩

/-- The shipped configuration and a volume of 8 shards: the shard manager is to read 8 cores from a
map of 4. -/
theorem mount_beyond_coreMap :
    (storageEngineInit 64 (smallInitCalls 8) shippedConfig shippedContext).shardManagerCall =
      some (8, [0, 1, 2, 3]) ∧ ¬ 8 ≤ ([0, 1, 2, 3] : List ℤ).length :=
  ⟨rfl, by decide⟩

end LightFS.Engine
