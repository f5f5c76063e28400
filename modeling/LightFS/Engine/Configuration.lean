import LightFS.Engine.Mkfs

/-!
# The configuration file

`load_config` (`src/engine/src/config.c`) takes the configuration of the engine from a JSON file: it
finds the sections, decodes the members of each with a table of decoders, fills in defaults and
checks the values, and in the end completes the path of the SPDK configuration with the directory of
the file. The module on cores has the sections `shard` and `rpc`; here is the whole function. An
error is the text that is logged.

The functions of SPDK that read the values, and `strtod`, are parameters, and so is the type of a
`double`. The one thing that is assumed of them is that `spdk_json_decode_object` fills a record by
the decoders of its table (`SpdkJson.FillsRecords`). A configuration that is loaded satisfies
`ConfigOk` then (`loadEngineConfig_ok`). Nothing more holds of all of them: for every configuration
that satisfies it there are such functions and a file that is loaded as this configuration
(`loadable_iff`). The file has every member spelled out (`spellConfig`).

## Main definitions

* `EngineConfig`, `loadEngineConfig`, `resolveSpdkJsonPath`.
* `ConfigOk`, `spellConfig`.

## Main results

* `loadEngineConfig_ok`, `loadEngineConfig_spell`, `loadable_iff`.
* `loadConfig_of_loadEngineConfig`.
-/

namespace LightFS.Engine

open Library

/-! ### Decoders -/

section Decoders

variable {V D : Type} (spdk : SpdkJson V)

/-- `decode_string_buf256`, `decode_string_cfg_path` and `decode_string_buf16`, for the size of the
buffer. -/
def decodeString (size : ℕ) (val : V) : Option CString :=
  if spdk.type val ≠ .string then none
  else if size ≤ (spdk.text val).length then none
  else some (.ofMemory (spdk.text val ++ [0]))

/-- `decode_json_bool`. -/
def decodeJsonBool (val : V) : Option Bool :=
  match spdk.type val with
  | .true => some true
  | .false => some false
  | _ => none

/-- `decode_json_number_as_double`. `strtod` has no result if it converts nothing. -/
def decodeJsonNumberAsDouble (strtod : CString → Option D) (val : V) : Option D :=
  if spdk.type val ≠ .number then none else strtod (.ofMemory (spdk.text val ++ [0]))

/-- `spdk_json_decode_uint32` into a `uint32_t`. -/
def decodeUint32 (val : V) : Option ℕ := (spdk.decodeUint32 val).map UInt32.toNat

/-- `spdk_json_decode_uint64` into a `uint64_t`. -/
def decodeUint64 (val : V) : Option ℕ := (spdk.decodeUint64 val).map UInt64.toNat

end Decoders

/-! ### Sections -/

/-- `CONFIG_PATH_MAX`. -/
def configPathMax : ℕ := 512

/-- `struct json_bdev`. -/
structure BdevSection where
  name : CString
  size : ℕ
  blockSize : ℕ
  numBlocks : ℕ

/-- `struct json_segment`. -/
structure SegmentSection where
  maxSegments : ℤ
  segmentSize : ℕ
  dataSegments : ℤ
  journalSegments : ℤ
  metadataSegments : ℤ

/-- `struct json_gc`. -/
structure GcSection (D : Type) where
  isEnabled : Bool
  threshold : D
  interval : ℤ
  segmentScanBatch : ℤ
  rescheduleDelayUs : ℕ

/-- `struct json_checkpoint`. -/
structure CheckpointSection where
  isEnabled : Bool
  interval : ℤ

/-- `struct json_log`. -/
structure LogSection where
  mode : CString
  filePath : CString
  defaultLevel : ℤ

section Tables

variable {V D : Type} (spdk : SpdkJson V)

/-- `json_bdev_decoders`. -/
def jsonBdevDecoders : Decoders V BdevSection :=
  [.field (literal "name") (decodeString spdk 256) (fun x s => { s with name := x }) false,
    .field (literal "size") (decodeUint64 spdk) (fun x s => { s with size := x }) true,
    .field (literal "block_size") (decodeUint32 spdk) (fun x s => { s with blockSize := x }) true,
    .field (literal "num_blocks") (decodeUint64 spdk) (fun x s => { s with numBlocks := x }) true]

/-- `json_segment_decoders`. -/
def jsonSegmentDecoders : Decoders V SegmentSection :=
  [.field (literal "max_segments") (decodeInt spdk) (fun x s => { s with maxSegments := x }) true,
    .field (literal "segment_size") (decodeUint64 spdk) (fun x s => { s with segmentSize := x })
      false,
    .field (literal "data_segments") (decodeInt spdk) (fun x s => { s with dataSegments := x })
      true,
    .field (literal "journal_segments") (decodeInt spdk)
      (fun x s => { s with journalSegments := x }) true,
    .field (literal "metadata_segments") (decodeInt spdk)
      (fun x s => { s with metadataSegments := x }) true]

/-- `json_wal_decoders`. -/
def jsonWalDecoders : Decoders V ℕ :=
  [.field (literal "ring_buffer_size") (decodeUint64 spdk) (fun x _ => x) false]

/-- `json_gc_decoders`. -/
def jsonGcDecoders (strtod : CString → Option D) : Decoders V (GcSection D) :=
  [.field (literal "enabled") (decodeJsonBool spdk) (fun x s => { s with isEnabled := x }) true,
    .field (literal "threshold") (decodeJsonNumberAsDouble spdk strtod)
      (fun x s => { s with threshold := x }) false,
    .field (literal "interval") (decodeInt spdk) (fun x s => { s with interval := x }) false,
    .field (literal "segment_scan_batch") (decodeInt spdk)
      (fun x s => { s with segmentScanBatch := x }) true,
    .field (literal "reschedule_delay_us") (decodeUint64 spdk)
      (fun x s => { s with rescheduleDelayUs := x }) true]

/-- `json_checkpoint_decoders`. -/
def jsonCheckpointDecoders : Decoders V CheckpointSection :=
  [.field (literal "enabled") (decodeJsonBool spdk) (fun x s => { s with isEnabled := x }) true,
    .field (literal "interval") (decodeInt spdk) (fun x s => { s with interval := x }) false]

/-- `json_log_decoders`. -/
def jsonLogDecoders : Decoders V LogSection :=
  [.field (literal "mode") (decodeString spdk 16) (fun x s => { s with mode := x }) false,
    .field (literal "file_path") (decodeString spdk configPathMax)
      (fun x s => { s with filePath := x }) false,
    .field (literal "default_level") (decodeInt spdk) (fun x s => { s with defaultLevel := x })
      false]

/-- `json_debug_decoders`. -/
def jsonDebugDecoders : Decoders V Bool :=
  [.field (literal "manifest_small_checkpoint") (decodeJsonBool spdk) (fun x _ => x) false]

end Tables

/-! ### The configuration -/

/-- `config_t`, section `gc`. -/
structure GcConfig (D : Type) where
  isEnabled : Bool
  threshold : D
  interval : ℤ
  segmentScanBatch : ℤ
  gcRescheduleDelayUs : ℕ

/-- `config_t`. The segments that are reserved and the lengths of the arrays are left out. -/
structure EngineConfig (D : Type) where
  spdkJsonConfigFile : CString
  bdev : BdevSection
  segment : SegmentConfig
  ringBufferSize : ℕ
  gc : GcConfig D
  checkpoint : CheckpointSection
  shard : ShardConfig
  rpc : RpcConfig
  log : LogSection
  manifestSmallCheckpoint : Bool

section Load

variable {V D : Type} (spdk : SpdkJson V)

/-- A section that has to be there. -/
def requiredSection {σ : Type} (name : String) (decoders : Decoders V σ) (init : σ)
    (path : CString) (root : V) : Except (List UInt8) σ := do
  let v ← orFail (literal "config: missing \"" ++ literal name ++ literal "\" object in " ++
    path.bytes) (spdk.find root (literal name) .objectBegin)
  orFail (literal "config: invalid " ++ literal name ++ literal " section in " ++ path.bytes)
    (spdk.decodeObject v decoders init)

/-- The member `json_config_file` of the section `spdk`. -/
def loadJsonConfigFile (path : CString) (spdkRoot : V) : Except (List UInt8) CString :=
  match spdk.find spdkRoot (literal "json_config_file") .string with
  | none => .ok (.ofString "nvme.json")
  | some jsonPath => orFail (literal "config: invalid spdk.json_config_file in " ++ path.bytes)
      (decodeString spdk configPathMax jsonPath)

/-- The member `bdev` of the section `spdk`. -/
def loadBdev (path : CString) (spdkRoot : V) : Except (List UInt8) BdevSection := do
  let bdevObj ← orFail (literal "config: missing spdk.bdev in " ++ path.bytes)
    (spdk.find spdkRoot (literal "bdev") .objectBegin)
  orFail (literal "config: invalid spdk.bdev in " ++ path.bytes)
    (spdk.decodeObject bdevObj (jsonBdevDecoders spdk) ⟨.ofString "", 0, 0, 0⟩)

/-- The section `segment` behind its decoding. -/
def loadSegment (js : SegmentSection) : Except (List UInt8) SegmentConfig :=
  if js.segmentSize = 0 then
    .error (literal "config: segment.segment_size must be set and non-zero")
  else .ok ⟨if 0 < js.maxSegments then js.maxSegments else 0, js.segmentSize⟩

/-- The section `gc` behind its decoding. -/
def loadGc (jg : GcSection D) : GcConfig D where
  isEnabled := jg.isEnabled
  threshold := jg.threshold
  interval := jg.interval
  segmentScanBatch :=
    if jg.segmentScanBatch ≤ 0 then 64
    else if 65536 < jg.segmentScanBatch then 65536
    else jg.segmentScanBatch
  gcRescheduleDelayUs := if jg.rescheduleDelayUs = 0 then 100000 else jg.rescheduleDelayUs

/-- The defaults of the section `log`. -/
def defaultLog : LogSection := ⟨.ofString "console", .ofString "storage_engine.log", 1⟩

/-- The section `log` behind its decoding; `-1` is the level of a section without one. -/
def loadLog : Option LogSection → LogSection
  | none => defaultLog
  | some jl =>
    { mode := if jl.mode.bytes ≠ [] then jl.mode else defaultLog.mode
      filePath := if jl.filePath.bytes ≠ [] then jl.filePath else defaultLog.filePath
      defaultLevel := if jl.defaultLevel ≠ -1 then jl.defaultLevel else defaultLog.defaultLevel }

/-- The names that `log.mode` may have. -/
def logModes : List CString := [.ofString "console", .ofString "file", .ofString "both"]

/-- The bytes up to the last slash. -/
def directoryOf (path : CString) : List UInt8 :=
  (path.bytes.reverse.dropWhile (· ≠ 47)).reverse

/-- `resolve_spdk_json_path`, with the buffer of `config_t`. -/
def resolveSpdkJsonPath (configFile spdkJson : CString) : Option (List UInt8) :=
  if spdkJson.bytes = [] then none
  else if spdkJson.bytes.head? = some 47 then some spdkJson.bytes
  else if directoryOf configFile = [] then some spdkJson.bytes
  else if configPathMax < (directoryOf configFile).length + spdkJson.length + 1 then none
  else some (directoryOf configFile ++ spdkJson.bytes)

/-- `load_config`, for the values of the file. -/
def loadEngineConfig [Zero D] (strtod : CString → Option D) (path : CString) (file : ConfigFile) :
    Except (List UInt8) (EngineConfig D) := do
  let spdk := file.spdk
  let spdkRoot ← orFail (literal "config: missing \"spdk\" object in " ++ path.bytes)
    (spdk.find file.root (literal "spdk") .objectBegin)
  let jsonConfigFile ← loadJsonConfigFile spdk path spdkRoot
  let bdev ← loadBdev spdk path spdkRoot
  let js ← requiredSection spdk "segment" (jsonSegmentDecoders spdk) ⟨0, 0, 0, 0, 0⟩ path file.root
  let segment ← loadSegment js
  let ringBufferSize ← requiredSection spdk "wal" (jsonWalDecoders spdk) 0 path file.root
  let jg ← requiredSection spdk "gc" (jsonGcDecoders spdk strtod) ⟨true, 0, 0, 0, 0⟩ path file.root
  let checkpoint ← requiredSection spdk "checkpoint" (jsonCheckpointDecoders spdk) ⟨true, 0⟩ path
    file.root
  let jsh ← optionalSection spdk "shard" (jsonShardDecoders spdk) ⟨0, 0, none⟩ path file.root
  let shard ← loadShardSection jsh
  let rpc ← optionalSection spdk "rpc" (jsonRpcDecoders spdk) ⟨0, 0⟩ path file.root
  let jl ← optionalSection spdk "log" (jsonLogDecoders spdk) ⟨.ofString "", .ofString "", -1⟩ path
    file.root
  let log := loadLog jl
  let debug ← optionalSection spdk "debug" (jsonDebugDecoders spdk) false path file.root
  check (log.mode ∈ logModes) (literal "config: log.mode must be one of console|file|both")
  check (0 ≤ log.defaultLevel ∧ log.defaultLevel ≤ 4)
    (literal "config: log.default_level must be in 0..4")
  let spdkJson ← orFail (literal "config: spdk json path resolve failed (too long?) for " ++
    path.bytes) (resolveSpdkJsonPath path jsonConfigFile)
  return {
    spdkJsonConfigFile := .ofMemory (spdkJson ++ [0])
    bdev
    segment
    ringBufferSize
    gc := loadGc jg
    checkpoint
    shard
    rpc := rpc.getD ⟨0, 0⟩
    log
    manifestSmallCheckpoint := debug.getD false }

end Load

/-! ### What is loaded -/

/-- The number is an `int32_t`. -/
def IsInt32 (n : ℤ) : Prop := -2 ^ 31 ≤ n ∧ n < 2 ^ 31

instance (n : ℤ) : Decidable (IsInt32 n) := inferInstanceAs (Decidable (_ ∧ _))

/-- The path is absolute, or the file has no directory, or the path begins with it. -/
structure PathOk (path spdkJson : CString) : Prop where
  length_lt : spdkJson.length < configPathMax
  bytes_ne_nil : spdkJson.bytes ≠ []
  resolved : spdkJson.bytes.head? = some 47 ∨ directoryOf path = [] ∨
    ∃ rel, rel ≠ [] ∧ rel.head? ≠ some 47 ∧ spdkJson.bytes = directoryOf path ++ rel

/-- What holds of the configuration that is loaded from a file with this path. -/
structure ConfigOk {D : Type} (path : CString) (config : EngineConfig D) : Prop where
  spdkJsonConfigFile : PathOk path config.spdkJsonConfigFile
  bdev_name : config.bdev.name.length < 256
  bdev_size : config.bdev.size < 2 ^ 64
  bdev_blockSize : config.bdev.blockSize < 2 ^ 32
  bdev_numBlocks : config.bdev.numBlocks < 2 ^ 64
  segmentSize : 0 < config.segment.segmentSize ∧ config.segment.segmentSize < 2 ^ 64
  maxSegments : 0 ≤ config.segment.maxSegments ∧ config.segment.maxSegments < 2 ^ 31
  ringBufferSize : config.ringBufferSize < 2 ^ 64
  gc_interval : IsInt32 config.gc.interval
  gc_segmentScanBatch : 1 ≤ config.gc.segmentScanBatch ∧ config.gc.segmentScanBatch ≤ 65536
  gc_rescheduleDelayUs : 0 < config.gc.gcRescheduleDelayUs ∧
    config.gc.gcRescheduleDelayUs < 2 ^ 64
  checkpoint_interval : IsInt32 config.checkpoint.interval
  shard_coreMap : ∀ core ∈ config.shard.coreMap, IsInt32 core
  shard_bgCore : IsInt32 config.shard.bgCore ∧ config.shard.bgCore ≠ 0
  rpc_port : IsInt32 config.rpc.port
  rpc_coreIndex : IsInt32 config.rpc.coreIndex
  log_mode : config.log.mode ∈ logModes
  log_filePath : config.log.filePath.length < configPathMax ∧ config.log.filePath.bytes ≠ []
  log_defaultLevel : 0 ≤ config.log.defaultLevel ∧ config.log.defaultLevel ≤ 4

section Decoded

variable {V : Type} {spdk : SpdkJson V} {val : V}

theorem isInt32_of_decodeInt {n : ℤ} (h : decodeInt spdk val = some n) : IsInt32 n := by
  obtain ⟨x, -, rfl⟩ := Option.map_eq_some_iff.mp h
  exact ⟨x.le_toInt, x.toInt_lt⟩

theorem lt_of_decodeUint32 {n : ℕ} (h : decodeUint32 spdk val = some n) : n < 2 ^ 32 := by
  obtain ⟨x, -, rfl⟩ := Option.map_eq_some_iff.mp h
  exact x.toNat_lt

theorem lt_of_decodeUint64 {n : ℕ} (h : decodeUint64 spdk val = some n) : n < 2 ^ 64 := by
  obtain ⟨x, -, rfl⟩ := Option.map_eq_some_iff.mp h
  exact x.toNat_lt

theorem length_lt_of_decodeString {size : ℕ} {s : CString}
    (h : decodeString spdk size val = some s) : s.length < size := by
  rw [decodeString] at h
  split_ifs at h with htype hsize
  rw [← Option.some.inj h]
  have htake : ((spdk.text val ++ [0]).takeWhile (· ≠ 0)).length ≤ (spdk.text val).length := by
    rw [List.takeWhile_append]
    split_ifs
    · simp
    · exact (List.takeWhile_prefix _).length_le
  exact Nat.lt_of_le_of_lt htake (Nat.not_le.mp hsize)

theorem isInt32_of_decodeElements {count : ℕ} {cores : List ℤ}
    (h : decodeElements spdk count val = some cores) : ∀ core ∈ cores, IsInt32 core := by
  induction count generalizing val cores with
  | zero =>
    obtain rfl : [] = cores := Option.some.inj h
    exact fun _ hcore => absurd hcore List.not_mem_nil
  | succ count ih =>
    rw [decodeElements] at h
    obtain ⟨core, hcore, h⟩ := Option.bind_eq_some_iff.mp h
    obtain ⟨cores₁, hcores, h⟩ := Option.bind_eq_some_iff.mp h
    obtain rfl : core :: cores₁ = cores := Option.some.inj h
    exact List.forall_mem_cons.mpr ⟨isInt32_of_decodeInt hcore, ih hcores⟩

theorem isInt32_of_jsonDecodeCoreMap {cores : List ℤ}
    (h : jsonDecodeCoreMap spdk val = some cores) : ∀ core ∈ cores, IsInt32 core := by
  dsimp only [jsonDecodeCoreMap] at h
  split_ifs at h
  exact isInt32_of_decodeElements h

end Decoded

/-! ### The sections of an accepted file -/

theorem eq_some_of_orFail {α : Type*} {message : List UInt8} {result : Option α} {x : α}
    (h : orFail message result = .ok x) : result = some x := by
  rcases result with _ | y
  · cases h
  · exact congrArg some (Except.ok.inj h)

section Sections

variable {V D : Type} {spdk : SpdkJson V} (hfills : spdk.FillsRecords) {path : CString} {root : V}

include hfills

/-- What the decoders of a section keep holds of it. -/
theorem requiredSection_invariant {σ : Type} {name : String} {decoders : Decoders V σ}
    {init s : σ} {P : σ → Prop}
    (hP : ∀ d ∈ decoders, ∀ v s s', P s → d.decode v s = some s' → P s')
    (hinit : P init) (hok : requiredSection spdk name decoders init path root = .ok s) : P s := by
  obtain ⟨v, -, hdecode⟩ := exists_of_bind_eq_ok hok
  exact (hfills _ _ _ _ (eq_some_of_orFail hdecode)).invariant hP hinit

theorem optionalSection_invariant {σ : Type} {name : String} {decoders : Decoders V σ}
    {init s : σ} {P : σ → Prop}
    (hP : ∀ d ∈ decoders, ∀ v s s', P s → d.decode v s = some s' → P s')
    (hinit : P init) (hok : optionalSection spdk name decoders init path root = .ok (some s)) :
    P s := by
  rw [optionalSection] at hok
  split at hok
  · cases hok
  · rename_i v _
    cases hdecode : spdk.decodeObject v decoders init with
    | none =>
      rw [hdecode] at hok
      cases hok
    | some s' =>
      rw [hdecode] at hok
      obtain rfl : s' = s := Option.some.inj (Except.ok.inj hok)
      exact (hfills _ _ _ _ hdecode).invariant hP hinit

theorem bdevSection_ok {b : BdevSection} (hok : loadBdev spdk path root = .ok b) :
    b.name.length < 256 ∧ b.size < 2 ^ 64 ∧ b.blockSize < 2 ^ 32 ∧ b.numBlocks < 2 ^ 64 := by
  obtain ⟨bdevObj, -, hdecode⟩ := exists_of_bind_eq_ok hok
  refine (hfills _ _ _ _ (eq_some_of_orFail hdecode)).invariant (P := fun b : BdevSection =>
    b.name.length < 256 ∧ b.size < 2 ^ 64 ∧ b.blockSize < 2 ^ 32 ∧ b.numBlocks < 2 ^ 64) ?_
    (by decide)
  simp only [jsonBdevDecoders, List.forall_mem_cons, List.not_mem_nil, false_implies,
    implies_true, and_true]
  exact ⟨field_keeps fun v x s hx hs => ⟨length_lt_of_decodeString hx, hs.2⟩,
    field_keeps fun v x s hx hs => ⟨hs.1, lt_of_decodeUint64 hx, hs.2.2⟩,
    field_keeps fun v x s hx hs => ⟨hs.1, hs.2.1, lt_of_decodeUint32 hx, hs.2.2.2⟩,
    field_keeps fun v x s hx hs => ⟨hs.1, hs.2.1, hs.2.2.1, lt_of_decodeUint64 hx⟩⟩

theorem segmentSection_ok {js : SegmentSection}
    (hok : requiredSection spdk "segment" (jsonSegmentDecoders spdk) ⟨0, 0, 0, 0, 0⟩ path root =
      .ok js) :
    IsInt32 js.maxSegments ∧ js.segmentSize < 2 ^ 64 := by
  refine requiredSection_invariant hfills (P := fun js : SegmentSection => IsInt32 js.maxSegments ∧
    js.segmentSize < 2 ^ 64) ?_ (by simp [IsInt32]) hok
  simp only [jsonSegmentDecoders, List.forall_mem_cons, List.not_mem_nil, false_implies,
    implies_true, and_true]
  exact ⟨field_keeps fun v x s hx hs => ⟨isInt32_of_decodeInt hx, hs.2⟩,
    field_keeps fun v x s hx hs => ⟨hs.1, lt_of_decodeUint64 hx⟩,
    field_keeps fun v x s hx hs => hs, field_keeps fun v x s hx hs => hs,
    field_keeps fun v x s hx hs => hs⟩

theorem walSection_ok {n : ℕ}
    (hok : requiredSection spdk "wal" (jsonWalDecoders spdk) 0 path root = .ok n) : n < 2 ^ 64 := by
  refine requiredSection_invariant hfills (P := fun n => n < 2 ^ 64) ?_ (by simp) hok
  simp only [jsonWalDecoders, List.forall_mem_cons, List.not_mem_nil, false_implies,
    implies_true, and_true]
  exact field_keeps fun v x s hx hs => lt_of_decodeUint64 hx

theorem gcSection_ok {strtod : CString → Option D} {jg init : GcSection D}
    (hinit : init.interval = 0 ∧ init.segmentScanBatch = 0 ∧ init.rescheduleDelayUs = 0)
    (hok : requiredSection spdk "gc" (jsonGcDecoders spdk strtod) init path root = .ok jg) :
    IsInt32 jg.interval ∧ IsInt32 jg.segmentScanBatch ∧ jg.rescheduleDelayUs < 2 ^ 64 := by
  refine requiredSection_invariant hfills (P := fun jg : GcSection D => IsInt32 jg.interval ∧
    IsInt32 jg.segmentScanBatch ∧ jg.rescheduleDelayUs < 2 ^ 64) ?_ (by simp [IsInt32, hinit]) hok
  simp only [jsonGcDecoders, List.forall_mem_cons, List.not_mem_nil, false_implies,
    implies_true, and_true]
  exact ⟨field_keeps fun v x s hx hs => hs, field_keeps fun v x s hx hs => hs,
    field_keeps fun v x s hx hs => ⟨isInt32_of_decodeInt hx, hs.2⟩,
    field_keeps fun v x s hx hs => ⟨hs.1, isInt32_of_decodeInt hx, hs.2.2⟩,
    field_keeps fun v x s hx hs => ⟨hs.1, hs.2.1, lt_of_decodeUint64 hx⟩⟩

theorem checkpointSection_ok {jc : CheckpointSection}
    (hok : requiredSection spdk "checkpoint" (jsonCheckpointDecoders spdk) ⟨true, 0⟩ path root =
      .ok jc) :
    IsInt32 jc.interval := by
  refine requiredSection_invariant hfills (P := fun jc : CheckpointSection =>
    IsInt32 jc.interval) ?_ (by simp [IsInt32]) hok
  simp only [jsonCheckpointDecoders, List.forall_mem_cons, List.not_mem_nil, false_implies,
    implies_true, and_true]
  exact ⟨field_keeps fun v x s hx hs => hs,
    field_keeps fun v x s hx hs => isInt32_of_decodeInt hx⟩

theorem shardSection_ok {jsh : ShardSection}
    (hok : optionalSection spdk "shard" (jsonShardDecoders spdk) ⟨0, 0, none⟩ path root =
      .ok (some jsh)) :
    IsInt32 jsh.bgCore ∧ ∀ core ∈ jsh.coreMap.getD [], IsInt32 core := by
  refine optionalSection_invariant hfills (P := fun jsh : ShardSection => IsInt32 jsh.bgCore ∧
    ∀ core ∈ jsh.coreMap.getD [], IsInt32 core) ?_ (by simp [IsInt32]) hok
  simp only [jsonShardDecoders, List.forall_mem_cons, List.not_mem_nil, false_implies,
    implies_true, and_true]
  exact ⟨field_keeps fun v x s hx hs => hs,
    field_keeps fun v x s hx hs => ⟨isInt32_of_decodeInt hx, hs.2⟩,
    field_keeps fun v x s hx hs => ⟨hs.1, isInt32_of_jsonDecodeCoreMap hx⟩⟩

theorem rpcSection_ok {jr : RpcConfig}
    (hok : optionalSection spdk "rpc" (jsonRpcDecoders spdk) ⟨0, 0⟩ path root = .ok (some jr)) :
    IsInt32 jr.port ∧ IsInt32 jr.coreIndex := by
  refine optionalSection_invariant hfills (P := fun jr : RpcConfig => IsInt32 jr.port ∧
    IsInt32 jr.coreIndex) ?_ (by simp [IsInt32]) hok
  simp only [jsonRpcDecoders, List.forall_mem_cons, List.not_mem_nil, false_implies,
    implies_true, and_true]
  exact ⟨field_keeps fun v x s hx hs => ⟨isInt32_of_decodeInt hx, hs.2⟩,
    field_keeps fun v x s hx hs => ⟨hs.1, isInt32_of_decodeInt hx⟩⟩

theorem logSection_ok {jl : LogSection}
    (hok : optionalSection spdk "log" (jsonLogDecoders spdk) ⟨.ofString "", .ofString "", -1⟩ path
      root = .ok (some jl)) : jl.filePath.length < configPathMax := by
  refine optionalSection_invariant hfills (P := fun jl : LogSection =>
    jl.filePath.length < configPathMax) ?_ (by decide) hok
  simp only [jsonLogDecoders, List.forall_mem_cons, List.not_mem_nil, false_implies,
    implies_true, and_true]
  exact ⟨field_keeps fun v x s hx hs => hs,
    field_keeps fun v x s hx hs => length_lt_of_decodeString hx,
    field_keeps fun v x s hx hs => hs⟩

end Sections

section Checked

variable {path : CString}

/-- The shards of an accepted file. -/
theorem exists_of_loadShard {numShards bgCore : ℤ} {coreMap : Option (List ℤ)} {shard : ShardConfig}
    (hok : loadShard numShards bgCore coreMap = .ok shard) :
    (1 ≤ numShards ∧ numShards ≤ 64) ∧
      shard.bgCore = (if bgCore = 0 then numShards else bgCore) ∧
      shard.coreMap = coreMap.getD ((List.range numShards.toNat).map Int.ofNat) := by
  rw [loadShard] at hok
  by_cases hnum : 1 ≤ numShards ∧ numShards ≤ 64
  · rw [dif_pos hnum] at hok
    dsimp only at hok
    split at hok
    · obtain rfl := Except.ok.inj hok
      exact ⟨hnum, rfl, rfl⟩
    · cases hok
  · rw [dif_neg hnum] at hok
    cases hok

theorem loadShard_ok {numShards bgCore : ℤ} {coreMap : Option (List ℤ)} {shard : ShardConfig}
    (hok : loadShard numShards bgCore coreMap = .ok shard) (hbg : IsInt32 bgCore)
    (hcores : ∀ core ∈ coreMap.getD [], IsInt32 core) :
    (∀ core ∈ shard.coreMap, IsInt32 core) ∧ IsInt32 shard.bgCore ∧ shard.bgCore ≠ 0 := by
  obtain ⟨hnum, hbgCore, hcoreMap⟩ := exists_of_loadShard hok
  refine ⟨?_, ?_⟩
  · rw [hcoreMap]
    cases coreMap with
    | none =>
      intro core hcore
      obtain ⟨i, hi, rfl⟩ := List.mem_map.mp hcore
      have hlt := List.mem_range.mp hi
      rw [IsInt32, Int.ofNat_eq_natCast]
      omega
    | some l => exact hcores
  · rw [hbgCore]
    rw [IsInt32] at hbg ⊢
    split_ifs with hzero <;> omega

/-- The completed path. -/
theorem pathOk_of_resolve {spdkJson : CString} {bytes : List UInt8}
    (hlength : spdkJson.length < configPathMax)
    (hok : resolveSpdkJsonPath path spdkJson = some bytes) :
    PathOk path (.ofMemory (bytes ++ [0])) := by
  have hread (s : CString) : CString.ofMemory (s.bytes ++ [0]) = s := s.ofMemory_append []
  rw [resolveSpdkJsonPath] at hok
  split_ifs at hok with hnil hroot hdir hlong
  · rw [← Option.some.inj hok, hread]
    exact ⟨hlength, hnil, .inl hroot⟩
  · rw [← Option.some.inj hok, hread]
    exact ⟨hlength, hnil, .inr (.inl hdir)⟩
  · have hfree : 0 ∉ directoryOf path ++ spdkJson.bytes := by
      intro hmem
      rcases List.mem_append.mp hmem with hmem | hmem
      · rw [directoryOf, List.mem_reverse] at hmem
        exact path.nul_free (List.mem_reverse.mp ((List.dropWhile_suffix _).subset hmem))
      · exact spdkJson.nul_free hmem
    have hresult : CString.ofMemory (bytes ++ [0]) =
        ⟨directoryOf path ++ spdkJson.bytes, hfree⟩ := by
      rw [← Option.some.inj hok]
      exact CString.ofMemory_append ⟨_, hfree⟩ []
    rw [hresult]
    refine ⟨?_, ?_, .inr (.inr ⟨spdkJson.bytes, hnil, hroot, rfl⟩)⟩
    · rw [CString.length] at hlong ⊢
      rw [List.length_append]
      omega
    · exact fun h => hnil (List.append_eq_nil_iff.mp h).2

theorem length_lt_of_loadJsonConfigFile {V : Type} {spdk : SpdkJson V} {spdkRoot : V} {s : CString}
    (hok : loadJsonConfigFile spdk path spdkRoot = .ok s) : s.length < configPathMax := by
  rw [loadJsonConfigFile] at hok
  split at hok
  · rw [← Except.ok.inj hok]
    decide
  · exact length_lt_of_decodeString (eq_some_of_orFail hok)

theorem loadSegment_ok {js : SegmentSection} {segment : SegmentConfig}
    (hok : loadSegment js = .ok segment) (hmax : IsInt32 js.maxSegments)
    (hsize : js.segmentSize < 2 ^ 64) :
    (0 < segment.segmentSize ∧ segment.segmentSize < 2 ^ 64) ∧
      0 ≤ segment.maxSegments ∧ segment.maxSegments < 2 ^ 31 := by
  rw [IsInt32] at hmax
  dsimp only [loadSegment] at hok
  split_ifs at hok <;> rw [← Except.ok.inj hok] <;> dsimp only <;> omega

theorem loadGc_ok {D : Type} {jg : GcSection D} (hdelay : jg.rescheduleDelayUs < 2 ^ 64) :
    (1 ≤ (loadGc jg).segmentScanBatch ∧ (loadGc jg).segmentScanBatch ≤ 65536) ∧
      0 < (loadGc jg).gcRescheduleDelayUs ∧ (loadGc jg).gcRescheduleDelayUs < 2 ^ 64 := by
  dsimp only [loadGc]
  split_ifs <;> omega

/-- A path in the section `log` is kept unless it is empty. -/
theorem loadLog_ok {jl : Option LogSection}
    (hlength : ∀ section_, jl = some section_ → section_.filePath.length < configPathMax) :
    (loadLog jl).filePath.length < configPathMax ∧ (loadLog jl).filePath.bytes ≠ [] := by
  cases jl with
  | none => exact ⟨by decide, by decide⟩
  | some jl =>
    dsimp only [loadLog]
    split_ifs with hfile
    · exact ⟨hlength jl rfl, hfile⟩
    · exact ⟨by decide, by decide⟩

/-- A step of `load_config` that succeeds. -/
theorem bind_of_ok {α β : Type} {first : Except (List UInt8) α} {x : α} (hfirst : first = .ok x)
    (next : α → Except (List UInt8) β) : (first >>= next) = next x := by
  rw [hfirst]
  rfl

end Checked

/-! ### What a load guarantees -/

section Steps

variable {D : Type} [Zero D] {strtod : CString → Option D} {path : CString} {file : ConfigFile}
  {config : EngineConfig D}

/-- The steps of a load that succeeds. -/
structure LoadSteps (strtod : CString → Option D) (path : CString) (file : ConfigFile)
    (config : EngineConfig D) where
  spdkRoot : file.V
  jsonConfigFile : CString
  js : SegmentSection
  jg : GcSection D
  jsh : Option ShardSection
  rpc : Option RpcConfig
  jl : Option LogSection
  spdkJson : List UInt8
  loadJsonConfigFile : loadJsonConfigFile file.spdk path spdkRoot = .ok jsonConfigFile
  loadBdev : loadBdev file.spdk path spdkRoot = .ok config.bdev
  segment : requiredSection file.spdk "segment" (jsonSegmentDecoders file.spdk) ⟨0, 0, 0, 0, 0⟩ path
    file.root = .ok js
  loadSegment : loadSegment js = .ok config.segment
  wal : requiredSection file.spdk "wal" (jsonWalDecoders file.spdk) 0 path file.root =
    .ok config.ringBufferSize
  gc : requiredSection file.spdk "gc" (jsonGcDecoders file.spdk strtod) ⟨true, 0, 0, 0, 0⟩ path
    file.root = .ok jg
  gc_eq : config.gc = loadGc jg
  checkpoint : requiredSection file.spdk "checkpoint" (jsonCheckpointDecoders file.spdk) ⟨true, 0⟩
    path file.root = .ok config.checkpoint
  shard : optionalSection file.spdk "shard" (jsonShardDecoders file.spdk) ⟨0, 0, none⟩ path
    file.root = .ok jsh
  loadShardSection : loadShardSection jsh = .ok config.shard
  rpcs : optionalSection file.spdk "rpc" (jsonRpcDecoders file.spdk) ⟨0, 0⟩ path file.root = .ok rpc
  rpc_eq : config.rpc = rpc.getD ⟨0, 0⟩
  log : optionalSection file.spdk "log" (jsonLogDecoders file.spdk)
    ⟨.ofString "", .ofString "", -1⟩ path file.root = .ok jl
  log_eq : config.log = loadLog jl
  log_mode : config.log.mode ∈ logModes
  log_defaultLevel : 0 ≤ config.log.defaultLevel ∧ config.log.defaultLevel ≤ 4
  resolve : resolveSpdkJsonPath path jsonConfigFile = some spdkJson
  spdkJson_eq : config.spdkJsonConfigFile = .ofMemory (spdkJson ++ [0])

theorem nonempty_loadSteps (hok : loadEngineConfig strtod path file = .ok config) :
    Nonempty (LoadSteps strtod path file config) := by
  obtain ⟨spdkRoot, -, hok⟩ := exists_of_bind_eq_ok hok
  obtain ⟨jsonConfigFile, hjson, hok⟩ := exists_of_bind_eq_ok hok
  obtain ⟨bdev, hbdev, hok⟩ := exists_of_bind_eq_ok hok
  obtain ⟨js, hjs, hok⟩ := exists_of_bind_eq_ok hok
  obtain ⟨segment, hsegment, hok⟩ := exists_of_bind_eq_ok hok
  obtain ⟨ringBufferSize, hwal, hok⟩ := exists_of_bind_eq_ok hok
  obtain ⟨jg, hgc, hok⟩ := exists_of_bind_eq_ok hok
  obtain ⟨checkpoint, hcheckpoint, hok⟩ := exists_of_bind_eq_ok hok
  obtain ⟨jsh, hjsh, hok⟩ := exists_of_bind_eq_ok hok
  obtain ⟨shard, hshard, hok⟩ := exists_of_bind_eq_ok hok
  obtain ⟨rpc, hrpc, hok⟩ := exists_of_bind_eq_ok hok
  obtain ⟨jl, hlog, hok⟩ := exists_of_bind_eq_ok hok
  obtain ⟨debug, -, hok⟩ := exists_of_bind_eq_ok hok
  obtain ⟨_, hmode, hok⟩ := exists_of_bind_eq_ok hok
  obtain ⟨_, hlevel, hok⟩ := exists_of_bind_eq_ok hok
  obtain ⟨spdkJson, hresolve, hok⟩ := exists_of_bind_eq_ok hok
  obtain rfl := Except.ok.inj hok
  exact ⟨{
    spdkRoot, jsonConfigFile, js, jg, jsh, rpc, jl, spdkJson
    loadJsonConfigFile := hjson
    loadBdev := hbdev
    segment := hjs
    loadSegment := hsegment
    wal := hwal
    gc := hgc
    gc_eq := rfl
    checkpoint := hcheckpoint
    shard := hjsh
    loadShardSection := hshard
    rpcs := hrpc
    rpc_eq := rfl
    log := hlog
    log_eq := rfl
    log_mode := check_eq_ok_iff.mp hmode
    log_defaultLevel := check_eq_ok_iff.mp hlevel
    resolve := eq_some_of_orFail hresolve
    spdkJson_eq := rfl }⟩

/-- **What is loaded is in order.** -/
theorem loadEngineConfig_ok (hfills : file.spdk.FillsRecords)
    (hok : loadEngineConfig strtod path file = .ok config) : ConfigOk path config := by
  obtain ⟨steps⟩ := nonempty_loadSteps hok
  obtain ⟨spdkRoot, jsonConfigFile, js, jg, jsh, rpc, jl, spdkJson, hjson, hbdev, hjs, hsegment,
    hwal, hgc, hgc_eq, hcheckpoint, hjsh, hshard, hrpc, hrpc_eq, hlog, hlog_eq, hmode, hlevel,
    hresolve, hspdkJson⟩ := steps
  obtain ⟨hname, hsize, hblockSize, hnumBlocks⟩ := bdevSection_ok hfills hbdev
  obtain ⟨hmaxSegments, hsegmentSize⟩ := segmentSection_ok hfills hjs
  have hsegments := loadSegment_ok hsegment hmaxSegments hsegmentSize
  obtain ⟨hinterval, -, hdelay⟩ := gcSection_ok hfills ⟨rfl, rfl, rfl⟩ hgc
  have hcores : (∀ core ∈ config.shard.coreMap, IsInt32 core) ∧ IsInt32 config.shard.bgCore ∧
      config.shard.bgCore ≠ 0 := by
    cases jsh with
    | none => exact loadShard_ok hshard (by decide) (by simp)
    | some jsh =>
      obtain ⟨hbg, hmap⟩ := shardSection_ok hfills hjsh
      exact loadShard_ok hshard hbg hmap
  have hrpcs : IsInt32 config.rpc.port ∧ IsInt32 config.rpc.coreIndex := by
    rw [hrpc_eq]
    cases rpc with
    | none => exact ⟨by decide, by decide⟩
    | some jr => exact rpcSection_ok hfills hrpc
  exact {
    spdkJsonConfigFile :=
      hspdkJson ▸ pathOk_of_resolve (length_lt_of_loadJsonConfigFile hjson) hresolve
    bdev_name := hname
    bdev_size := hsize
    bdev_blockSize := hblockSize
    bdev_numBlocks := hnumBlocks
    segmentSize := hsegments.1
    maxSegments := hsegments.2
    ringBufferSize := walSection_ok hfills hwal
    gc_interval := hgc_eq ▸ hinterval
    gc_segmentScanBatch := hgc_eq ▸ (loadGc_ok hdelay).1
    gc_rescheduleDelayUs := hgc_eq ▸ (loadGc_ok hdelay).2
    checkpoint_interval := checkpointSection_ok hfills hcheckpoint
    shard_coreMap := hcores.1
    shard_bgCore := hcores.2
    rpc_port := hrpcs.1
    rpc_coreIndex := hrpcs.2
    log_mode := hmode
    log_filePath := hlog_eq ▸ loadLog_ok fun _ hjl => logSection_ok hfills (hjl ▸ hlog)
    log_defaultLevel := hlevel }

/-- **The sections of the cores** of a file that is accepted are accepted by the module on cores,
with the same result, so that what is proved there holds of the whole file. -/
theorem loadConfig_of_loadEngineConfig (hok : loadEngineConfig strtod path file = .ok config) :
    loadConfig path file = .ok ⟨config.shard, config.rpc⟩ := by
  obtain ⟨steps⟩ := nonempty_loadSteps hok
  rw [loadConfig, bind_of_ok steps.shard, bind_of_ok steps.loadShardSection,
    bind_of_ok steps.rpcs, steps.rpc_eq]
  rfl

end Steps

/-! ### A file for every configuration -/

/-- The path as it stands in the file: without the directory of the file, if it is not absolute. -/
def spellPath (path spdkJson : CString) : List UInt8 :=
  if spdkJson.bytes.head? = some 47 then spdkJson.bytes
  else spdkJson.bytes.drop (directoryOf path).length

/-- The members of an object. -/
abbrev JsonMembers := List (List UInt8 × JsonTree)

section Spell

variable {D : Type}

def spellBdev (bdev : BdevSection) : JsonMembers :=
  [(literal "name", .string bdev.name.bytes), (literal "size", .int bdev.size),
    (literal "block_size", .int bdev.blockSize), (literal "num_blocks", .int bdev.numBlocks)]

def spellSpdk (path : CString) (config : EngineConfig D) : JsonMembers :=
  [(literal "json_config_file", .string (spellPath path config.spdkJsonConfigFile)),
    (literal "bdev", .object (spellBdev config.bdev))]

def spellSegment (segment : SegmentConfig) : JsonMembers :=
  [(literal "max_segments", .int segment.maxSegments),
    (literal "segment_size", .int segment.segmentSize),
    (literal "data_segments", .int 0), (literal "journal_segments", .int 0),
    (literal "metadata_segments", .int 0)]

def spellGc (threshold : CString) (gc : GcConfig D) : JsonMembers :=
  [(literal "enabled", .bool gc.isEnabled), (literal "threshold", .number threshold.bytes),
    (literal "interval", .int gc.interval),
    (literal "segment_scan_batch", .int gc.segmentScanBatch),
    (literal "reschedule_delay_us", .int gc.gcRescheduleDelayUs)]

def spellCheckpoint (checkpoint : CheckpointSection) : JsonMembers :=
  [(literal "enabled", .bool checkpoint.isEnabled), (literal "interval", .int checkpoint.interval)]

def spellShard (shard : ShardConfig) : JsonMembers :=
  [(literal "num_shards", .int shard.numShards), (literal "bg_core", .int shard.bgCore),
    (literal "core_map", .array (shard.coreMap.map .int))]

def spellRpc (rpc : RpcConfig) : JsonMembers :=
  [(literal "port", .int rpc.port), (literal "core_index", .int rpc.coreIndex)]

def spellLog (log : LogSection) : JsonMembers :=
  [(literal "mode", .string log.mode.bytes), (literal "file_path", .string log.filePath.bytes),
    (literal "default_level", .int log.defaultLevel)]

/-- The configuration with all sections and all members spelled out, and a text for the `double`. -/
def spellConfig (path threshold : CString) (config : EngineConfig D) : JsonMembers :=
  [(literal "spdk", .object (spellSpdk path config)),
    (literal "segment", .object (spellSegment config.segment)),
    (literal "wal", .object [(literal "ring_buffer_size", .int config.ringBufferSize)]),
    (literal "gc", .object (spellGc threshold config.gc)),
    (literal "checkpoint", .object (spellCheckpoint config.checkpoint)),
    (literal "shard", .object (spellShard config.shard)),
    (literal "rpc", .object (spellRpc config.rpc)),
    (literal "log", .object (spellLog config.log)),
    (literal "debug", .object
      [(literal "manifest_small_checkpoint", .bool config.manifestSmallCheckpoint)])]

end Spell

section Spelled

variable {n : ℤ} {rest : List JsonTree}

theorem decodeInt_treeJson (h : IsInt32 n) : decodeInt treeJson (.int n :: rest) = some n :=
  decodeInt32_int h

theorem decodeUint32_treeJson {n : ℕ} (h : n < 2 ^ 32) :
    decodeUint32 treeJson [.int n] = some n := by
  have hrange : (0 : ℤ) ≤ n ∧ (n : ℤ) < 2 ^ 32 := by omega
  rw [decodeUint32, decodeUint32_int hrange, Int.toNat_natCast]

theorem decodeUint64_treeJson {n : ℕ} (h : n < 2 ^ 64) :
    decodeUint64 treeJson [.int n] = some n := by
  have hrange : (0 : ℤ) ≤ n ∧ (n : ℤ) < 2 ^ 64 := by omega
  rw [decodeUint64, decodeUint64_int hrange, Int.toNat_natCast]

theorem decodeJsonBool_treeJson (b : Bool) : decodeJsonBool treeJson [.bool b] = some b := by
  cases b <;> rfl

theorem decodeString_treeJson {size : ℕ} {s : CString} (h : s.length < size) :
    decodeString treeJson size [.string s.bytes] = some s := by
  have htype : ¬ treeJson.type [.string s.bytes] ≠ .string := not_not.mpr rfl
  have htext : treeJson.text [.string s.bytes] = s.bytes := rfl
  have hsize : ¬ size ≤ s.bytes.length := Nat.not_le.mpr h
  rw [decodeString, if_neg htype, htext, if_neg hsize, s.ofMemory_append []]

theorem decodeJsonNumberAsDouble_treeJson {D : Type} (strtod : CString → Option D)
    (text : CString) :
    decodeJsonNumberAsDouble treeJson strtod [.number text.bytes] = strtod text := by
  have htype : ¬ treeJson.type [.number text.bytes] ≠ .number := not_not.mpr rfl
  have htext : treeJson.text [.number text.bytes] = text.bytes := rfl
  rw [decodeJsonNumberAsDouble, if_neg htype, htext, text.ofMemory_append []]

theorem decodeElements_treeJson {cores : List ℤ} (hcores : ∀ core ∈ cores, IsInt32 core) :
    decodeElements treeJson cores.length (cores.map .int) = some cores := by
  induction cores with
  | nil => rfl
  | cons core cores ih =>
    obtain ⟨hcore, hcores⟩ := List.forall_mem_cons.mp hcores
    have hnext : treeJson.next ((core :: cores).map .int) = cores.map .int := rfl
    rw [List.length_cons, decodeElements, hnext, ih hcores, List.map_cons,
      decodeInt_treeJson hcore]
    rfl

theorem jsonDecodeCoreMap_treeJson {cores : List ℤ}
    (hlength : 1 ≤ cores.length ∧ cores.length ≤ 64) (hcores : ∀ core ∈ cores, IsInt32 core) :
    jsonDecodeCoreMap treeJson [.array (cores.map .int)] = some cores := by
  have hlen : treeJson.valLen [.array (cores.map .int)] = cores.length + 2 :=
    congrArg (· + 2) (List.length_map _)
  have hfirst : treeJson.arrayFirst [.array (cores.map .int)] = cores.map .int := rfl
  have hcount : (Int32.ofNat (cores.length + 2)).toInt - 2 = cores.length := by
    rw [Int32.toInt_ofNat_of_lt (by omega)]
    omega
  dsimp only [jsonDecodeCoreMap]
  rw [hlen, hcount, if_neg (by omega), Int.toNat_natCast, hfirst]
  exact decodeElements_treeJson hcores

end Spelled

section Sections

variable {D : Type} {path : CString} {config : EngineConfig D} {file members : JsonMembers}

/-- The members of a section that is there are decoded. -/
theorem requiredSection_eq {σ : Type} {name : String} {decoders : Decoders (List JsonTree) σ}
    {init s : σ}
    (hfind : treeJson.find [.object file] (literal name) .objectBegin = some [.object members])
    (hdecode : treeJson.decodeObject [.object members] decoders init = some s) :
    requiredSection treeJson name decoders init path [.object file] = .ok s := by
  rw [requiredSection, hfind]
  change orFail _ (treeJson.decodeObject [.object members] decoders init) = _
  rw [hdecode]
  rfl

theorem optionalSection_eq {σ : Type} {name : String} {decoders : Decoders (List JsonTree) σ}
    {init s : σ}
    (hfind : treeJson.find [.object file] (literal name) .objectBegin = some [.object members])
    (hdecode : treeJson.decodeObject [.object members] decoders init = some s) :
    optionalSection treeJson name decoders init path [.object file] = .ok (some s) := by
  rw [optionalSection, hfind]
  dsimp only
  rw [hdecode]
  rfl

theorem decodeObject_spellBdev (h : ConfigOk path config) :
    treeJson.decodeObject [.object (spellBdev config.bdev)] (jsonBdevDecoders treeJson)
      ⟨.ofString "", 0, 0, 0⟩ = some config.bdev := by
  rw [decodeObject_treeJson (by decide) rfl]
  simp [jsonBdevDecoders, spellBdev, MemberDecoder.field, decodeString_treeJson h.bdev_name,
    decodeUint64_treeJson h.bdev_size, decodeUint32_treeJson h.bdev_blockSize,
    decodeUint64_treeJson h.bdev_numBlocks]

theorem decodeObject_spellSegment (h : ConfigOk path config) :
    treeJson.decodeObject [.object (spellSegment config.segment)] (jsonSegmentDecoders treeJson)
      ⟨0, 0, 0, 0, 0⟩ = some ⟨config.segment.maxSegments, config.segment.segmentSize, 0, 0, 0⟩ := by
  have hmax : IsInt32 config.segment.maxSegments :=
    ⟨(by decide : (-2 ^ 31 : ℤ) ≤ 0).trans h.maxSegments.1, h.maxSegments.2⟩
  have hzero : IsInt32 0 := by decide
  rw [decodeObject_treeJson (by decide) rfl]
  simp [jsonSegmentDecoders, spellSegment, MemberDecoder.field, decodeInt_treeJson hmax,
    decodeUint64_treeJson h.segmentSize.2, decodeInt_treeJson hzero]

theorem decodeObject_spellGc [Zero D] (h : ConfigOk path config) {strtod : CString → Option D}
    {threshold : CString} (hthreshold : strtod threshold = some config.gc.threshold) :
    treeJson.decodeObject [.object (spellGc threshold config.gc)] (jsonGcDecoders treeJson strtod)
      ⟨true, 0, 0, 0, 0⟩ = some ⟨config.gc.isEnabled, config.gc.threshold, config.gc.interval,
        config.gc.segmentScanBatch, config.gc.gcRescheduleDelayUs⟩ := by
  have hbatch : IsInt32 config.gc.segmentScanBatch := by
    have hrange := h.gc_segmentScanBatch
    rw [IsInt32]
    omega
  have hnames : ((jsonGcDecoders treeJson strtod).map MemberDecoder.name).Nodup := by
    change [literal "enabled", literal "threshold", literal "interval",
      literal "segment_scan_batch", literal "reschedule_delay_us"].Nodup
    decide
  rw [decodeObject_treeJson hnames rfl]
  simp [jsonGcDecoders, spellGc, MemberDecoder.field, decodeJsonBool_treeJson,
    decodeJsonNumberAsDouble_treeJson, hthreshold, decodeInt_treeJson h.gc_interval,
    decodeInt_treeJson hbatch, decodeUint64_treeJson h.gc_rescheduleDelayUs.2]

theorem decodeObject_spellCheckpoint (h : ConfigOk path config) :
    treeJson.decodeObject [.object (spellCheckpoint config.checkpoint)]
      (jsonCheckpointDecoders treeJson) ⟨true, 0⟩ = some config.checkpoint := by
  rw [decodeObject_treeJson (by decide) rfl]
  simp [jsonCheckpointDecoders, spellCheckpoint, MemberDecoder.field, decodeJsonBool_treeJson,
    decodeInt_treeJson h.checkpoint_interval]

theorem decodeObject_spellShard (h : ConfigOk path config) :
    treeJson.decodeObject [.object (spellShard config.shard)] (jsonShardDecoders treeJson)
      ⟨0, 0, none⟩ = some ⟨config.shard.numShards, config.shard.bgCore,
        some config.shard.coreMap⟩ := by
  have hnum := config.shard.numShards_mem
  have hint : IsInt32 config.shard.numShards := by
    rw [IsInt32]
    omega
  have hlength : 1 ≤ config.shard.coreMap.length ∧ config.shard.coreMap.length ≤ 64 := by
    rwa [config.shard.length_coreMap]
  rw [decodeObject_treeJson (by decide) rfl]
  simp [jsonShardDecoders, spellShard, MemberDecoder.field, decodeInt_treeJson hint,
    decodeInt_treeJson h.shard_bgCore.1, jsonDecodeCoreMap_treeJson hlength h.shard_coreMap]

theorem decodeObject_spellRpc (h : ConfigOk path config) :
    treeJson.decodeObject [.object (spellRpc config.rpc)] (jsonRpcDecoders treeJson) ⟨0, 0⟩ =
      some config.rpc := by
  rw [decodeObject_treeJson (by decide) rfl]
  simp [jsonRpcDecoders, spellRpc, MemberDecoder.field, decodeInt_treeJson h.rpc_port,
    decodeInt_treeJson h.rpc_coreIndex]

theorem length_of_mem_logModes {mode : CString} (h : mode ∈ logModes) :
    0 < mode.length ∧ mode.length < 16 := by
  have hall : ∀ mode ∈ logModes, 0 < mode.length ∧ mode.length < 16 := by decide
  exact hall mode h

theorem decodeObject_spellLog (h : ConfigOk path config) :
    treeJson.decodeObject [.object (spellLog config.log)] (jsonLogDecoders treeJson)
      ⟨.ofString "", .ofString "", -1⟩ = some config.log := by
  have hlevel : IsInt32 config.log.defaultLevel := by
    have hrange := h.log_defaultLevel
    rw [IsInt32]
    omega
  rw [decodeObject_treeJson (by decide) rfl]
  simp [jsonLogDecoders, spellLog, MemberDecoder.field,
    decodeString_treeJson (length_of_mem_logModes h.log_mode).2,
    decodeString_treeJson h.log_filePath.1, decodeInt_treeJson hlevel]

theorem loadSegment_spell (h : ConfigOk path config) :
    loadSegment ⟨config.segment.maxSegments, config.segment.segmentSize, 0, 0, 0⟩ =
      .ok config.segment := by
  have hmax : (if 0 < config.segment.maxSegments then config.segment.maxSegments else 0) =
      config.segment.maxSegments := by
    have hnonneg := h.maxSegments.1
    split_ifs <;> omega
  dsimp only [loadSegment]
  rw [if_neg (Nat.ne_of_gt h.segmentSize.1), hmax]

theorem loadGc_spell (h : ConfigOk path config) :
    loadGc ⟨config.gc.isEnabled, config.gc.threshold, config.gc.interval,
      config.gc.segmentScanBatch, config.gc.gcRescheduleDelayUs⟩ = config.gc := by
  have hbatch := h.gc_segmentScanBatch
  dsimp only [loadGc]
  rw [if_neg (by omega), if_neg (by omega), if_neg (Nat.ne_of_gt h.gc_rescheduleDelayUs.1)]

theorem loadShardSection_spell (h : ConfigOk path config) :
    loadShardSection (some ⟨config.shard.numShards, config.shard.bgCore,
      some config.shard.coreMap⟩) = .ok config.shard := by
  have hbg := h.shard_bgCore.2
  generalize config.shard = shard at hbg ⊢
  obtain ⟨numShards, bgCore, coreMap, hnum, hlength⟩ := shard
  dsimp only at hbg
  rw [loadShardSection]
  dsimp only
  rw [if_pos (by omega), loadShard, dif_pos (by omega)]
  simp [hlength, hbg]

theorem loadLog_spell (h : ConfigOk path config) : loadLog (some config.log) = config.log := by
  have hmode : config.log.mode.bytes ≠ [] :=
    List.ne_nil_of_length_pos (length_of_mem_logModes h.log_mode).1
  have hlevel := h.log_defaultLevel
  dsimp only [loadLog]
  rw [if_pos hmode, if_pos h.log_filePath.2, if_pos (by omega)]

variable (path) in
/-- The path in the file, as the string that is decoded. -/
theorem exists_spellPath (spdkJson : CString) :
    ∃ s : CString, s.bytes = spellPath path spdkJson ∧ s.length ≤ spdkJson.length := by
  have hsub : (spellPath path spdkJson).Sublist spdkJson.bytes := by
    rw [spellPath]
    split_ifs
    · exact List.Sublist.refl _
    · exact List.drop_sublist _ _
  exact ⟨⟨_, fun hmem => spdkJson.nul_free (hsub.subset hmem)⟩, rfl, hsub.length_le⟩

theorem resolve_spellPath {spdkJson s : CString} (h : PathOk path spdkJson)
    (hs : s.bytes = spellPath path spdkJson) :
    resolveSpdkJsonPath path s = some spdkJson.bytes := by
  rw [resolveSpdkJsonPath, CString.length, hs, spellPath]
  by_cases hroot : spdkJson.bytes.head? = some 47
  · rw [if_pos hroot, if_neg h.bytes_ne_nil, if_pos hroot]
  rw [if_neg hroot]
  by_cases hdir : directoryOf path = []
  · rw [hdir, List.length_nil, List.drop_zero, if_neg h.bytes_ne_nil, if_neg hroot, if_pos rfl]
  · obtain ⟨rel, hnil, hrel, hbytes⟩ := (h.resolved.resolve_left hroot).resolve_left hdir
    have hlength := h.length_lt
    rw [CString.length, hbytes, List.length_append] at hlength
    rw [hbytes, List.drop_left, if_neg hnil, if_neg hrel, if_neg hdir, if_neg (by omega)]

/-- **The file with everything spelled out** is loaded as the configuration it was made from. -/
theorem loadEngineConfig_spell [Zero D] (h : ConfigOk path config)
    (strtod : CString → Option D) (threshold : CString)
    (hthreshold : strtod threshold = some config.gc.threshold) :
    loadEngineConfig strtod path (treeFile (spellConfig path threshold config)) = .ok config := by
  obtain ⟨s, hs, hle⟩ := exists_spellPath path config.spdkJsonConfigFile
  have hlt : s.length < configPathMax := Nat.lt_of_le_of_lt hle h.spdkJsonConfigFile.length_lt
  have hjson : loadJsonConfigFile treeJson path [.object (spellSpdk path config)] = .ok s := by
    change orFail _ (decodeString treeJson configPathMax [.string _]) = _
    rw [← hs, decodeString_treeJson hlt]
    rfl
  have hbdev : loadBdev treeJson path [.object (spellSpdk path config)] = .ok config.bdev := by
    change orFail _ (treeJson.decodeObject [.object (spellBdev config.bdev)] _ _) = _
    rw [decodeObject_spellBdev h]
    rfl
  have hwal : treeJson.decodeObject [.object [(literal "ring_buffer_size",
      .int config.ringBufferSize)]] (jsonWalDecoders treeJson) 0 = some config.ringBufferSize := by
    rw [decodeObject_treeJson (by decide) rfl]
    simp [jsonWalDecoders, MemberDecoder.field, decodeUint64_treeJson h.ringBufferSize]
  have hdebug : treeJson.decodeObject [.object [(literal "manifest_small_checkpoint",
      .bool config.manifestSmallCheckpoint)]] (jsonDebugDecoders treeJson) false =
        some config.manifestSmallCheckpoint := by
    rw [decodeObject_treeJson (by decide) rfl]
    simp [jsonDebugDecoders, MemberDecoder.field, decodeJsonBool_treeJson]
  rw [loadEngineConfig]
  refine (bind_of_ok (x := [JsonTree.object (spellSpdk path config)]) rfl _).trans ?_
  refine (bind_of_ok hjson _).trans ?_
  refine (bind_of_ok hbdev _).trans ?_
  refine (bind_of_ok (requiredSection_eq rfl (decodeObject_spellSegment h)) _).trans ?_
  refine (bind_of_ok (loadSegment_spell h) _).trans ?_
  refine (bind_of_ok (requiredSection_eq rfl hwal) _).trans ?_
  refine (bind_of_ok (requiredSection_eq rfl (decodeObject_spellGc h hthreshold)) _).trans ?_
  refine (bind_of_ok (requiredSection_eq rfl (decodeObject_spellCheckpoint h)) _).trans ?_
  refine (bind_of_ok (optionalSection_eq rfl (decodeObject_spellShard h)) _).trans ?_
  refine (bind_of_ok (loadShardSection_spell h) _).trans ?_
  refine (bind_of_ok (optionalSection_eq rfl (decodeObject_spellRpc h)) _).trans ?_
  refine (bind_of_ok (optionalSection_eq rfl (decodeObject_spellLog h)) _).trans ?_
  refine (bind_of_ok (optionalSection_eq rfl hdebug) _).trans ?_
  rw [loadLog_spell h, loadGc_spell h]
  refine (bind_of_ok (check_eq_ok_iff.mpr h.log_mode) _).trans ?_
  refine (bind_of_ok (check_eq_ok_iff.mpr h.log_defaultLevel) _).trans ?_
  refine (bind_of_ok (x := config.spdkJsonConfigFile.bytes) ?_ _).trans ?_
  · rw [resolve_spellPath h.spdkJsonConfigFile hs]
    rfl
  · rw [CString.ofMemory_append]
    rfl

/-- **What `load_config` guarantees.** With functions of SPDK that fill records by the decoders of
their tables, and with any `strtod`, a configuration that is loaded satisfies `ConfigOk`; and every
configuration that satisfies it is loaded from some file with some such functions. -/
theorem loadable_iff [Zero D] (path : CString) (config : EngineConfig D) :
    (∃ (file : ConfigFile) (strtod : CString → Option D), file.spdk.FillsRecords ∧
      loadEngineConfig strtod path file = .ok config) ↔ ConfigOk path config := by
  constructor
  · rintro ⟨file, strtod, hfills, hok⟩
    exact loadEngineConfig_ok hfills hok
  · intro h
    exact ⟨_, _, fillsRecords_treeJson,
      loadEngineConfig_spell h (fun _ => some config.gc.threshold) (.ofString "0.8") rfl⟩

end Sections

end LightFS.Engine
