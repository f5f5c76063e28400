import LightFS.Library.Machine
import LightFS.Meta.Shard

/-!
# The shard is an insertion-ordered map

What a shard is for: a finite map from (bucket, key) to manifests that remembers the order in
which the pairs were first inserted. `mapMachine` states this map on lists, with its own words
for matching and for the start of a listing; `shardMachine` is the code of
`LightFS.Meta.Shard`, its allocations succeeding. The relation `MetaShard.Represents` is a
simulation between the two (`shardMachine_simulates`), so every run of the code returns what the
map returns. The keys of a listing are cut to 63 bytes, by the code and by the map; when they are
names of entries nevertheless is `metaShardList_lists_names_iff`.

## Main definitions

* `ShardOp`, `ShardResult`, `shardMachine`, `mapMachine`.
* `MetaShard.Represents`.
* `lastInserted` — the manifest last inserted for a pair since its last delete.
* `selectedEntries` — the entries of a listing.

## Main results

* `shardMachine_simulates`.
* `metaShard_refines_orderedMap`.
* `metaShardList_lists_names_iff`.
-/

namespace LightFS.Meta

open Library

/-- A call on a shard. -/
inductive ShardOp where
  | insert (manifest : ObjectManifest)
  | delete (bucket key : CString)
  | lookup (bucket key : CString)
  | list (bucket : CString) (prefix_ marker : Option CString) (maxKeys : ℤ)

/-- What a call on a shard returns. -/
inductive ShardResult where
  | status (code : ℤ)
  | manifest (found : Option ObjectManifest)
  | keys (keys : List (CharArray 63))

/-- The code of the shard. -/
def shardMachine : Machine MetaShard ShardOp ShardResult where
  step
    | shard, .insert manifest =>
      ((metaShardInsert .success shard manifest).1,
        .status (metaShardInsert .success shard manifest).2)
    | shard, .delete bucket key =>
      ((metaShardDelete shard bucket key).1, .status (metaShardDelete shard bucket key).2)
    | shard, .lookup bucket key => (shard, .manifest (metaShardLookup shard bucket key))
    | shard, .list bucket prefix_ marker maxKeys =>
      (shard, .keys (metaShardList shard bucket prefix_ marker maxKeys))

/-! ### The map -/

/-- An object of the bucket whose key begins with the prefix. -/
def InListing (bucket : CString) (prefix_ : Option CString) (m : ObjectManifest) : Prop :=
  m.bucket.toCString = bucket ∧ ∀ p ∈ prefix_, p.bytes <+: m.key.bytes

instance (bucket : CString) (prefix_ : Option CString) :
    DecidablePred (InListing bucket prefix_) := fun m =>
  inferInstanceAs (Decidable (m.bucket.toCString = bucket ∧ ∀ p ∈ prefix_, p.bytes <+: m.key.bytes))

/-- A marker that is absent or the empty string. -/
def NoMarker (marker : Option CString) : Prop := ∀ m ∈ marker, m.bytes = []

instance : DecidablePred NoMarker := fun marker =>
  inferInstanceAs (Decidable (∀ m ∈ marker, m.bytes = []))

/-- The part of the map a listing with a marker runs over: from the first key greater than the
marker on, the whole map when there is no such key. -/
def fromMarker (marker : Option CString) (l : List ObjectManifest) : List ObjectManifest :=
  match marker with
  | none => l
  | some m =>
    if m.bytes = [] then l
    else l.drop ((l.findIdx? fun e => decide (m < e.key.toCString)).getD 0)

/-- The listing of the map, each key cut to 63 bytes. -/
def mapList (l : List ObjectManifest) (bucket : CString) (prefix_ marker : Option CString)
    (maxKeys : ℤ) : List (CharArray 63) :=
  (((fromMarker marker l).filter (InListing bucket prefix_ ·)).take maxKeys.toNat).map
    fun e => .strncpy e.key.toCString

/-- The insertion-ordered map. -/
def mapMachine : Machine (List ObjectManifest) ShardOp ShardResult where
  step
    | l, .insert manifest => (upsert ObjectManifest.name manifest l, .status 0)
    | l, .delete bucket key =>
      (eraseKey ObjectManifest.name (bucket, key) l,
        .status (if (bucket, key) ∈ l.map ObjectManifest.name then 0 else -1))
    | l, .lookup bucket key => (l, .manifest (lookupKey ObjectManifest.name (bucket, key) l))
    | l, .list bucket prefix_ marker maxKeys =>
      (l, .keys (mapList l bucket prefix_ marker maxKeys))

/-- The manifest of the last insert for a pair since the last delete of it. -/
def lastInserted (name : CString × CString) (ops : List ShardOp) : Option ObjectManifest :=
  ops.foldl (fun current op => match op with
    | .insert manifest => if manifest.name = name then some manifest else current
    | .delete bucket key => if (bucket, key) = name then none else current
    | _ => current) none

/-! ### The simulation -/

/-- The shard represents a map: its live entries are the records of the map, in order. -/
def MetaShard.Represents (shard : MetaShard) (l : List ObjectManifest) : Prop :=
  shard.WellFormed ∧ shard.contents = l

theorem listMatches_iff (bucket : CString) (prefix_ : Option CString) (e : ObjectManifest) :
    listMatches bucket prefix_ e = true ↔ InListing bucket prefix_ e := by
  unfold listMatches InListing
  rw [Bool.and_eq_true, beq_iff_eq, strcmp_eq_eq_iff, CString.ext_iff]
  refine and_congr_right fun _ => ?_
  cases prefix_ with
  | none => simp
  | some p =>
    simp only [Bool.or_eq_true, beq_iff_eq, strncmpEq_length_iff, Option.mem_some_iff, forall_eq']
    refine or_iff_right_of_imp fun hp => ?_
    rw [List.length_eq_zero_iff.mp hp]
    exact List.nil_prefix

theorem drop_listStart (shard : MetaShard) (marker : Option CString) :
    shard.contents.drop (listStart shard marker) = fromMarker marker shard.contents := by
  cases marker with
  | none => rfl
  | some m =>
    have hgt : (fun e : ObjectManifest => strcmp e.key.bytes m.bytes == .gt) =
        fun e => decide (m < e.key.toCString) := by
      funext e
      rw [Bool.eq_iff_iff, beq_iff_eq, strcmp_eq_gt_iff, decide_eq_true_iff]
    simp only [listStart, fromMarker, CString.length, List.length_eq_zero_iff]
    split_ifs with h
    · rfl
    · rw [findSlot_eq, hgt]
      rfl

/-- The listing of the code is the listing of the map. -/
theorem metaShardList_eq_mapList (shard : MetaShard) (bucket : CString)
    (prefix_ marker : Option CString) (maxKeys : ℤ) :
    metaShardList shard bucket prefix_ marker maxKeys =
      mapList shard.contents bucket prefix_ marker maxKeys := by
  have hmatch : listMatches bucket prefix_ = fun e => decide (InListing bucket prefix_ e) := by
    funext e
    rw [Bool.eq_iff_iff, listMatches_iff, decide_eq_true_iff]
  rw [metaShardList_eq, drop_listStart, hmatch, mapList]

/-- **The simulation.** Every call keeps the representation and answers as the map does. -/
theorem shardMachine_simulates : shardMachine.Simulates mapMachine MetaShard.Represents where
  result_eq := by
    rintro shard _ op ⟨-, rfl⟩
    cases op with
    | insert manifest => exact congrArg _ (metaShardInsert_success shard manifest).2
    | delete bucket key => exact congrArg _ (metaShardDelete_eq shard bucket key).2
    | lookup bucket key => exact congrArg _ (metaShardLookup_eq shard bucket key)
    | list bucket prefix_ marker maxKeys =>
      exact congrArg _ (metaShardList_eq_mapList shard bucket prefix_ marker maxKeys)
  step_rel := by
    rintro shard _ op ⟨hwf, rfl⟩
    cases op with
    | insert manifest => exact ⟨hwf.insert manifest, contents_metaShardInsert shard manifest⟩
    | delete bucket key => exact ⟨hwf.delete bucket key, (metaShardDelete_eq shard bucket key).1⟩
    | lookup bucket key => exact ⟨hwf, rfl⟩
    | list bucket prefix_ marker maxKeys => exact ⟨hwf, rfl⟩

/-- A shard after a run represents the map after the same run. -/
theorem represents_run (shardId parentShardId : UInt32) (bucketName : Option CString)
    (ops : List ShardOp) :
    (shardMachine.run (metaShardCreate shardId parentShardId bucketName) ops).Represents
      (mapMachine.run [] ops) :=
  shardMachine_simulates.run_rel
    ⟨metaShardCreate_wellFormed shardId parentShardId bucketName, rfl⟩ ops

theorem keysNodup_mapMachine_step {l : List ObjectManifest} (hl : KeysNodup ObjectManifest.name l)
    (op : ShardOp) : KeysNodup ObjectManifest.name (mapMachine.step l op).1 := by
  cases op with
  | insert manifest => exact hl.upsert
  | delete bucket key => exact hl.eraseKey
  | lookup bucket key => exact hl
  | list bucket prefix_ marker maxKeys => exact hl

/-- The map holds for every pair the manifest last inserted for it. -/
theorem lookupKey_mapMachine_run (name : CString × CString) (ops : List ShardOp) :
    lookupKey ObjectManifest.name name (mapMachine.run [] ops) = lastInserted name ops := by
  -- generalised over the map the run starts from and what it holds for the pair
  have h : ∀ (l : List ObjectManifest) (cur : Option ObjectManifest),
      KeysNodup ObjectManifest.name l → lookupKey ObjectManifest.name name l = cur →
      lookupKey ObjectManifest.name name (mapMachine.run l ops) =
        ops.foldl (fun current op => match op with
          | .insert manifest => if manifest.name = name then some manifest else current
          | .delete bucket key => if (bucket, key) = name then none else current
          | _ => current) cur := by
    induction ops with
    | nil => exact fun l cur _ h => h
    | cons op ops ih =>
      intro l cur hl hcur
      refine ih _ _ (keysNodup_mapMachine_step hl op) ?_
      cases op with
      | insert manifest =>
        refine lookupKey_upsert.trans ?_
        rw [hcur]
        simp only [eq_comm]
      | delete bucket key =>
        refine (lookupKey_eraseKey hl).trans ?_
        rw [hcur]
        simp only [eq_comm]
      | lookup bucket key => exact hcur
      | list bucket prefix_ marker maxKeys => exact hcur
  exact h [] none keysNodup_nil rfl

theorem fromMarker_of_noMarker {marker : Option CString} (h : NoMarker marker)
    (l : List ObjectManifest) : fromMarker marker l = l := by
  cases marker with
  | none => rfl
  | some m => exact if_pos (h m rfl)

/-- The entries whose keys a listing returns. -/
def selectedEntries (l : List ObjectManifest) (bucket : CString) (prefix_ marker : Option CString)
    (maxKeys : ℤ) : List ObjectManifest :=
  ((fromMarker marker l).filter (InListing bucket prefix_ ·)).take maxKeys.toNat

theorem fromMarker_sublist (marker : Option CString) (l : List ObjectManifest) :
    (fromMarker marker l).Sublist l := by
  unfold fromMarker
  split
  · exact .refl l
  · split
    · exact .refl l
    · exact List.drop_sublist ..

theorem selectedEntries_sublist {l : List ObjectManifest} {bucket : CString}
    {prefix_ marker : Option CString} {maxKeys : ℤ} :
    (selectedEntries l bucket prefix_ marker maxKeys).Sublist l :=
  ((List.take_sublist ..).trans List.filter_sublist).trans (fromMarker_sublist marker l)

/-- With keys of at most 63 bytes a listing returns whole keys. -/
theorem map_toCString_metaShardList {shard : MetaShard}
    (hkeys : ∀ e ∈ shard.contents, e.key.bytes.length ≤ 63) (bucket : CString)
    (prefix_ marker : Option CString) (maxKeys : ℤ) :
    (metaShardList shard bucket prefix_ marker maxKeys).map (·.toCString) =
      (((fromMarker marker shard.contents).filter (InListing bucket prefix_ ·)).take
        maxKeys.toNat).map fun e => e.key.toCString := by
  rw [metaShardList_eq_mapList, mapList, List.map_map]
  refine List.map_congr_left fun e he => ?_
  exact CString.ext (CharArray.strncpy_bytes_of_le (hkeys e (selectedEntries_sublist.subset he)))

/-- **The shard refines an insertion-ordered map.** Along every run from an empty shard the
results are those of the map; the names of the live entries are distinct and the live entries
fit the array; a lookup returns the manifest last inserted for the pair since its last delete, a
delete fails exactly when the pair is absent, and a listing without marker returns, for keys of
at most 63 bytes, the first `max_keys` matching keys in map order. -/
theorem metaShard_refines_orderedMap (shardId parentShardId : UInt32)
    (bucketName : Option CString) (ops : List ShardOp) :
    let start := metaShardCreate shardId parentShardId bucketName
    let shard := shardMachine.run start ops
    let l := mapMachine.run [] ops
    shardMachine.results start ops = mapMachine.results [] ops ∧
    shard.contents = l ∧
    shard.contents.Pairwise (fun e e' => e.name ≠ e'.name) ∧
    shard.entryCount ≤ shard.entryCapacity ∧
    (∀ bucket key, metaShardLookup shard bucket key = lastInserted (bucket, key) ops) ∧
    (∀ bucket key, (metaShardDelete shard bucket key).2 = -1 ↔ ∀ e ∈ l, e.name ≠ (bucket, key)) ∧
    ((∀ e ∈ l, e.key.bytes.length ≤ 63) → ∀ bucket prefix_ marker maxKeys, NoMarker marker →
      (metaShardList shard bucket prefix_ marker maxKeys).map (·.toCString) =
        ((l.filter (InListing bucket prefix_ ·)).map (·.key.toCString)).take maxKeys.toNat) := by
  intro start shard l
  obtain ⟨hwf, hcontents⟩ : shard.Represents l :=
    represents_run shardId parentShardId bucketName ops
  refine ⟨?_, hcontents, ?_, hwf.count_le, ?_, ?_, ?_⟩
  · exact shardMachine_simulates.results_eq
      ⟨metaShardCreate_wellFormed shardId parentShardId bucketName, rfl⟩ ops
  · exact List.pairwise_map.mp hwf.keysNodup
  · intro bucket key
    rw [metaShardLookup_eq, hcontents]
    exact lookupKey_mapMachine_run (bucket, key) ops
  · intro bucket key
    rw [(metaShardDelete_eq shard bucket key).2, hcontents]
    split_ifs with h
    · obtain ⟨e, he, hname⟩ := List.mem_map.mp h
      simpa using ⟨e, he, hname⟩
    · simpa using fun e he hname => h (List.mem_map.mpr ⟨e, he, hname⟩)
  · intro hkeys bucket prefix_ marker maxKeys hmarker
    rw [map_toCString_metaShardList (hcontents ▸ hkeys), fromMarker_of_noMarker hmarker,
      hcontents, List.map_take]

/-! ### Listed names -/

section Selected

variable {l : List ObjectManifest} {bucket : CString} {prefix_ marker : Option CString}
  {maxKeys : ℤ} {m m' : ObjectManifest}

theorem bucket_of_mem_selectedEntries (h : m ∈ selectedEntries l bucket prefix_ marker maxKeys) :
    m.bucket.toCString = bucket :=
  (of_decide_eq_true (List.mem_filter.mp (List.mem_of_mem_take h)).2).1

/-- Selected entries with the same key are the same. -/
theorem eq_of_mem_selectedEntries (hl : KeysNodup ObjectManifest.name l)
    (h : m ∈ selectedEntries l bucket prefix_ marker maxKeys)
    (h' : m' ∈ selectedEntries l bucket prefix_ marker maxKeys) (hkey : m.key = m'.key) :
    m = m' := by
  refine hl.eq_of_key_eq (selectedEntries_sublist.subset h) (selectedEntries_sublist.subset h') ?_
  rw [ObjectManifest.name, ObjectManifest.name, bucket_of_mem_selectedEntries h,
    bucket_of_mem_selectedEntries h', hkey]

/-- A lookup succeeds exactly for the names of entries. -/
theorem exists_metaShardLookup_iff {shard : MetaShard}
    (hnodup : KeysNodup ObjectManifest.name shard.contents) (bucket key : CString) :
    (∃ m, metaShardLookup shard bucket key = some m) ↔
      ∃ m ∈ shard.contents, m.bucket.toCString = bucket ∧ m.key.bytes = key.bytes := by
  refine exists_congr fun m => ?_
  rw [metaShardLookup_eq, lookupKey_eq_some_iff hnodup, ObjectManifest.name, Prod.mk.injEq,
    CString.ext_iff (x := m.key.toCString)]

/-- Two keys are cut to the same string. -/
theorem strncpy_key_eq_iff : (CharArray.strncpy m.key.toCString : CharArray 63) =
    .strncpy m'.key.toCString ↔ m.key.bytes.take 63 = m'.key.bytes.take 63 :=
  CharArray.ext_iff

end Selected

/-- **Listed names.** In every shard that a run reaches, the strings of a listing are keys of the
bucket that a lookup finds, and pairwise different, if and only if every selected entry with a key
of more than 63 bytes has in its first 63 bytes a key of the bucket and shares them with no other
selected entry. -/
theorem metaShardList_lists_names_iff (shardId parentShardId : UInt32)
    (bucketName : Option CString) (ops : List ShardOp) (bucket : CString)
    (prefix_ marker : Option CString) (maxKeys : ℤ) :
    let shard := shardMachine.run (metaShardCreate shardId parentShardId bucketName) ops
    let listed := metaShardList shard bucket prefix_ marker maxKeys
    let selected := selectedEntries shard.contents bucket prefix_ marker maxKeys
    ((∀ key ∈ listed, ∃ m, metaShardLookup shard bucket key.toCString = some m) ∧ listed.Nodup) ↔
      ∀ m ∈ selected, 63 < m.key.bytes.length →
        (∃ stored ∈ shard.contents, stored.bucket.toCString = bucket ∧
          stored.key.bytes = m.key.bytes.take 63) ∧
        ∀ m' ∈ selected, m' ≠ m → m'.key.bytes.take 63 ≠ m.key.bytes.take 63 := by
  intro shard listed selected
  have hnodup : KeysNodup ObjectManifest.name shard.contents :=
    (represents_run shardId parentShardId bucketName ops).1.keysNodup
  have hlisted : listed = selected.map fun e => .strncpy e.key.toCString :=
    metaShardList_eq_mapList shard bucket prefix_ marker maxKeys
  have hdistinct : selected.Nodup := (hnodup.of_map _).sublist selectedEntries_sublist
  have hfound (m : ObjectManifest) : (∃ found, metaShardLookup shard bucket
      (CharArray.strncpy m.key.toCString : CharArray 63).toCString = some found) ↔
        ∃ stored ∈ shard.contents, stored.bucket.toCString = bucket ∧
          stored.key.bytes = m.key.bytes.take 63 :=
    exists_metaShardLookup_iff hnodup bucket _
  rw [hlisted, List.forall_mem_map, List.nodup_map_iff_inj_on hdistinct]
  simp only [hfound, strncpy_key_eq_iff]
  constructor
  · rintro ⟨hstored, hinj⟩ m hm -
    exact ⟨hstored m hm, fun m' hm' hne heq => hne (hinj m' hm' m hm heq)⟩
  · intro h
    refine ⟨fun m hm => ?_, fun m hm m' hm' heq => ?_⟩
    · rcases Nat.lt_or_ge 63 m.key.bytes.length with hlong | hshort
      · exact (h m hm hlong).1
      · exact ⟨m, selectedEntries_sublist.subset hm, bucket_of_mem_selectedEntries hm,
          (List.take_of_length_le hshort).symm⟩
    · by_contra hne
      rcases Nat.lt_or_ge 63 m.key.bytes.length with hlong | hshort
      · exact (h m hm hlong).2 m' hm' (Ne.symm hne) heq.symm
      rcases Nat.lt_or_ge 63 m'.key.bytes.length with hlong' | hshort'
      · exact (h m' hm' hlong').2 m hm hne heq
      · rw [List.take_of_length_le hshort, List.take_of_length_le hshort'] at heq
        exact hne (eq_of_mem_selectedEntries hnodup hm hm' (CharArray.ext heq))

/-- A key of 64 bytes is listed with its first 63 bytes, which no lookup finds. -/
theorem metaShardList_cuts_key :
    let shard := shardMachine.run (metaShardCreate 1 0 none) [.insert (numberedManifest 64)]
    ∃ key ∈ metaShardList shard (.ofString "") none none 10,
      metaShardLookup shard (.ofString "") key.toCString = none :=
  ⟨repeatedLetter 63 63, by decide +kernel, by decide +kernel⟩

end LightFS.Meta
