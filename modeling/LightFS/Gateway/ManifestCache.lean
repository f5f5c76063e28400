import LightFS.Library.LinearProbe
import LightFS.Library.Machine
import LightFS.Meta.Types

/-!
# The manifest cache

The cache of object manifests of the gateway (`src/gateway/gateway_manifest_cache.c`), an
open-addressing table with linear probing. Every slot has a flag `is_valid`; an invalidated or
evicted slot keeps its old names and manifest behind a cleared flag.

`ManifestCache.table` forgets these leftovers and the counter; along every run the code does to
it what the table of `LightFS.Library.LinearProbe` does (`cacheMachine_simulates`).

## Main definitions

* `CacheEntry`, `ManifestCache`, `makeIndex`, `manifestCacheCreate`, `manifestCacheLookup`,
  `manifestCacheInsert`, `manifestCacheInvalidate`.
* `CacheOp`, `cacheMachine`, `tableMachine`, `ManifestCache.Represents`.

## Main results

* `cacheMachine_simulates`.
-/

namespace LightFS.Gateway

open Library Meta

/-- `cache_entry_t`. -/
structure CacheEntry where
  bucket : CharArray metaMaxBucketLength
  key : CharArray metaMaxKeyLength
  manifest : ObjectManifest
  isValid : Bool

/-- The zeroed record, as `calloc` leaves it. -/
def CacheEntry.zero : CacheEntry := ⟨.empty, .empty, .zero, false⟩

/-- `struct manifest_cache`. -/
structure ManifestCache where
  entries : ℕ → CacheEntry
  capacity : ℕ
  count : ℤ

/-- `manifest_cache_create`, its allocations succeeding. -/
def manifestCacheCreate (maxEntries : ℕ) : ManifestCache where
  entries := fun _ => .zero
  capacity := maxEntries
  count := 0

/-- A `char`, which is signed. -/
def signedChar (c : UInt8) : ℤ := if c.toNat < 128 then c.toNat else c.toNat - 256

/-- One loop of `make_index`. The mask keeps the 31 low bits of the `int` sum, which wraps when it
overflows. -/
def hashBytes (hash : ℕ) (bytes : List UInt8) : ℕ :=
  bytes.foldl (fun hash c => ((hash * 31 + signedChar c) % 2 ^ 31).toNat) hash

/-- `make_index`. -/
def makeIndex (bucket key : CString) (capacity : ℕ) : ℕ :=
  hashBytes (hashBytes 0 bucket.bytes) key.bytes % capacity

namespace ManifestCache

/-- The slot of the probe number `i`. The `int` sum does not overflow: an array of more than
`2 ^ 30` entries is not allocated. -/
def probe (cache : ManifestCache) (index i : ℕ) : ℕ := (index + i) % cache.capacity

/-- The entry the probe number `i` looks at. -/
def probeEntry (cache : ManifestCache) (index i : ℕ) : CacheEntry :=
  cache.entries (cache.probe index i)

end ManifestCache

/-- The comparison of both names of an entry. -/
def CacheEntry.hasNames (bucket key : CString) (entry : CacheEntry) : Bool :=
  strcmp entry.bucket.bytes bucket.bytes == .eq && strcmp entry.key.bytes key.bytes == .eq

/-- The first probe at which the loops of lookup and invalidate end: an invalid entry, or one
with these names. -/
def searchEnd (cache : ManifestCache) (bucket key : CString) : Option ℕ :=
  findSlot (fun entry => !entry.isValid || entry.hasNames bucket key)
    (cache.probeEntry (makeIndex bucket key cache.capacity)) 0 cache.capacity

/-- `manifest_cache_lookup`: the manifest written to `out`, `none` for `-1`. -/
def manifestCacheLookup (cache : ManifestCache) (bucket key : CString) : Option ObjectManifest :=
  match searchEnd cache bucket key with
  | none => none
  | some i =>
    let index := makeIndex bucket key cache.capacity
    if (cache.probeEntry index i).isValid then some (cache.probeEntry index i).manifest else none

/-- Store to one slot. -/
def ManifestCache.setEntry (cache : ManifestCache) (slot : ℕ) (entry : CacheEntry) :
    ManifestCache :=
  { cache with entries := Function.update cache.entries slot entry }

/-- `entries[slot].is_valid = 0; count--;`. -/
def ManifestCache.clearSlot (cache : ManifestCache) (slot : ℕ) : ManifestCache :=
  { cache.setEntry slot { cache.entries slot with isValid := false } with
    count := cache.count - 1 }

/-- The stores to a new entry, and `count++;`. -/
def ManifestCache.fillSlot (cache : ManifestCache) (slot : ℕ) (bucket key : CString)
    (manifest : ObjectManifest) : ManifestCache :=
  { cache.setEntry slot ⟨.strncpy bucket, .strncpy key, manifest, true⟩ with
    count := cache.count + 1 }

/-- The eviction of `manifest_cache_insert`: of a cache that counts as full, the first invalid
slot, or slot `0` when there is none, is cleared. -/
def evict (cache : ManifestCache) : ManifestCache :=
  if cache.capacity ≤ cache.count then
    cache.clearSlot ((findSlot (fun entry => !entry.isValid) cache.entries 0 cache.capacity).getD 0)
  else cache

/-- The last loop of `manifest_cache_insert`: the first invalid probe gets the entry. -/
def placeEntry (cache : ManifestCache) (bucket key : CString) (manifest : ObjectManifest) :
    ManifestCache :=
  let index := makeIndex bucket key cache.capacity
  match findSlot (fun entry => !entry.isValid) (cache.probeEntry index) 0 cache.capacity with
  | none => cache
  | some i => cache.fillSlot (cache.probe index i) bucket key manifest

/-- `manifest_cache_insert`. -/
def manifestCacheInsert (cache : ManifestCache) (bucket key : CString)
    (manifest : ObjectManifest) : ManifestCache :=
  let index := makeIndex bucket key cache.capacity
  match findSlot (fun entry => entry.isValid && entry.hasNames bucket key)
      (cache.probeEntry index) 0 cache.capacity with
  | some i =>
    cache.setEntry (cache.probe index i) { cache.probeEntry index i with manifest := manifest }
  | none => placeEntry (evict cache) bucket key manifest

/-- `manifest_cache_invalidate`. -/
def manifestCacheInvalidate (cache : ManifestCache) (bucket key : CString) : ManifestCache :=
  match searchEnd cache bucket key with
  | none => cache
  | some i =>
    let index := makeIndex bucket key cache.capacity
    if (cache.probeEntry index i).isValid then cache.clearSlot (cache.probe index i) else cache

/-- `manifest_cache_size`. -/
def manifestCacheSize (cache : ManifestCache) : ℤ := cache.count

/-! ### Runs -/

/-- A call on the cache, with names that fit the arrays of an entry. -/
inductive CacheOp where
  | insert (bucket : CharArray metaMaxBucketLength) (key : CharArray metaMaxKeyLength)
      (manifest : ObjectManifest)
  | lookup (bucket : CharArray metaMaxBucketLength) (key : CharArray metaMaxKeyLength)
  | invalidate (bucket : CharArray metaMaxBucketLength) (key : CharArray metaMaxKeyLength)

/-- The code of the cache. -/
def cacheMachine : Machine ManifestCache CacheOp (Option ObjectManifest) where
  step
    | cache, .insert bucket key manifest =>
      (manifestCacheInsert cache bucket.toCString key.toCString manifest, none)
    | cache, .lookup bucket key =>
      (cache, manifestCacheLookup cache bucket.toCString key.toCString)
    | cache, .invalidate bucket key =>
      (manifestCacheInvalidate cache bucket.toCString key.toCString, none)

/-! ### The table behind the cache -/

/-- What a slot holds, an invalid one nothing. -/
def CacheEntry.content (entry : CacheEntry) : Option ((CString × CString) × ObjectManifest) :=
  if entry.isValid then some ((entry.bucket.toCString, entry.key.toCString), entry.manifest)
  else none

/-- The table of the valid entries. -/
def ManifestCache.table (cache : ManifestCache) :
    ProbeTable (CString × CString) ObjectManifest where
  slot p := (cache.entries p).content
  capacity := cache.capacity

/-- The home slot of a pair of names. -/
def homeSlot (capacity : ℕ) (name : CString × CString) : ℕ := makeIndex name.1 name.2 capacity

/-- The open-addressing table under the calls on the cache. -/
def tableMachine :
    Machine (ProbeTable (CString × CString) ObjectManifest) CacheOp (Option ObjectManifest) where
  step
    | t, .insert bucket key manifest =>
      (t.insert (homeSlot t.capacity) (bucket.toCString, key.toCString) manifest, none)
    | t, .lookup bucket key =>
      (t, t.lookup (homeSlot t.capacity) (bucket.toCString, key.toCString))
    | t, .invalidate bucket key =>
      (t.erase (homeSlot t.capacity) (bucket.toCString, key.toCString), none)

/-- The cache counts its valid entries. -/
def ManifestCache.Counts (cache : ManifestCache) : Prop :=
  cache.count + cache.table.holes.card = cache.capacity

/-- The invariant of a cache: valid entries have distinct names and are counted. -/
structure ManifestCache.WellFormed (cache : ManifestCache) : Prop where
  capacity_pos : 0 < cache.capacity
  distinct : cache.table.Distinct
  counts : cache.Counts

/-- The cache represents a table: its valid entries are those of the table. -/
def ManifestCache.Represents (cache : ManifestCache)
    (t : ProbeTable (CString × CString) ObjectManifest) : Prop :=
  cache.WellFormed ∧ cache.table = t

/-! ### The loops on the table -/

section Loops

variable (cache : ManifestCache) (bucket key : CString)

theorem hasNames_eq (entry : CacheEntry) : entry.hasNames bucket key =
    decide ((entry.bucket.toCString, entry.key.toCString) = (bucket, key)) := by
  rw [Bool.eq_iff_iff, decide_eq_true_iff, CacheEntry.hasNames, Bool.and_eq_true, beq_iff_eq,
    beq_iff_eq, strcmp_eq_eq_iff, strcmp_eq_eq_iff, Prod.mk.injEq, CString.ext_iff,
    CString.ext_iff]

theorem stopsAt_content (entry : CacheEntry) :
    ProbeTable.stopsAt (bucket, key) entry.content =
      (!entry.isValid || entry.hasNames bucket key) := by
  rw [hasNames_eq, CacheEntry.content]
  cases entry.isValid <;> rfl

theorem holdsKey_content (entry : CacheEntry) :
    ProbeTable.holdsKey (bucket, key) entry.content =
      (entry.isValid && entry.hasNames bucket key) := by
  rw [hasNames_eq, CacheEntry.content]
  cases entry.isValid <;> rfl

theorem isNone_content (entry : CacheEntry) : entry.content.isNone = !entry.isValid := by
  rw [CacheEntry.content]
  cases entry.isValid <;> rfl

theorem content_eq_none_iff {entry : CacheEntry} :
    entry.content = none ↔ ¬ entry.isValid = true := by
  rw [← Option.isNone_iff_eq_none, isNone_content, Bool.not_eq_true', Bool.not_eq_true]

theorem searchEnd_eq : searchEnd cache bucket key =
    findSlot (ProbeTable.stopsAt (bucket, key))
      (cache.table.entry (homeSlot cache.capacity (bucket, key))) 0 cache.table.capacity := by
  refine Eq.trans ?_ (findSlot_map _ CacheEntry.content _ _ _).symm
  simp only [stopsAt_content]
  rfl

/-- The scan of the first loop of `manifest_cache_insert`. -/
theorem findSlot_hasNames :
    findSlot (fun entry => entry.isValid && entry.hasNames bucket key)
        (cache.probeEntry (makeIndex bucket key cache.capacity)) 0 cache.capacity =
      findSlot (ProbeTable.holdsKey (bucket, key))
        (cache.table.entry (homeSlot cache.capacity (bucket, key))) 0 cache.table.capacity := by
  refine Eq.trans ?_ (findSlot_map _ CacheEntry.content _ _ _).symm
  simp only [holdsKey_content]
  rfl

/-- The scans for an invalid entry, over any of the two orders of the slots. -/
theorem findSlot_invalid (slotOf : ℕ → ℕ) :
    findSlot (fun entry => !entry.isValid) (fun i => cache.entries (slotOf i)) 0 cache.capacity =
      findSlot Option.isNone (fun i => cache.table.slot (slotOf i)) 0 cache.table.capacity := by
  refine Eq.trans ?_ (findSlot_map _ CacheEntry.content _ _ _).symm
  simp only [isNone_content]
  rfl

theorem table_setEntry (slot : ℕ) (entry : CacheEntry) :
    (cache.setEntry slot entry).table = cache.table.set slot entry.content := by
  rw [ManifestCache.table, ManifestCache.setEntry, ProbeTable.set, ManifestCache.table]
  congr 1
  funext p
  simp only [Function.update_apply]
  split <;> rfl

theorem table_clearSlot (slot : ℕ) : (cache.clearSlot slot).table = cache.table.set slot none :=
  table_setEntry cache slot _

theorem table_fillSlot (slot : ℕ) (bucket : CharArray metaMaxBucketLength)
    (key : CharArray metaMaxKeyLength) (manifest : ObjectManifest) :
    (cache.fillSlot slot bucket.toCString key.toCString manifest).table =
      cache.table.set slot (some ((bucket.toCString, key.toCString), manifest)) := by
  refine (table_setEntry cache slot _).trans ?_
  rw [CharArray.strncpy_toCString, CharArray.strncpy_toCString]
  rfl

end Loops

/-! ### The simulation -/

section Simulation

variable {cache : ManifestCache} {slot : ℕ}

theorem counts_clearSlot (hslot : slot < cache.capacity) (hcounts : cache.Counts)
    (hvalid : cache.table.slot slot ≠ none) : (cache.clearSlot slot).Counts := by
  have hnot : slot ∉ cache.table.holes := fun h => hvalid (ProbeTable.mem_holes.mp h).2
  rw [ManifestCache.Counts, table_clearSlot, ProbeTable.holes_set_none hslot,
    Finset.card_insert_of_notMem hnot]
  rw [ManifestCache.Counts] at hcounts
  change cache.count - 1 + _ = (cache.capacity : ℤ)
  push_cast
  omega

theorem counts_fillSlot (hslot : slot < cache.capacity) (hcounts : cache.Counts)
    (hnone : cache.table.slot slot = none) (bucket : CharArray metaMaxBucketLength)
    (key : CharArray metaMaxKeyLength) (manifest : ObjectManifest) :
    (cache.fillSlot slot bucket.toCString key.toCString manifest).Counts := by
  have hmem : slot ∈ cache.table.holes := ProbeTable.mem_holes.mpr ⟨hslot, hnone⟩
  have hpos : 0 < cache.table.holes.card := Finset.card_pos.mpr ⟨slot, hmem⟩
  rw [ManifestCache.Counts, table_fillSlot, ProbeTable.holes_set_some,
    Finset.card_erase_of_mem hmem]
  rw [ManifestCache.Counts] at hcounts
  change cache.count + 1 + _ = (cache.capacity : ℤ)
  omega

/-- A lookup in the cache is a lookup in the table. -/
theorem manifestCacheLookup_eq (cache : ManifestCache) (bucket key : CString) :
    manifestCacheLookup cache bucket key =
      cache.table.lookup (homeSlot cache.capacity) (bucket, key) := by
  rw [manifestCacheLookup, searchEnd_eq, ProbeTable.lookup]
  cases findSlot (ProbeTable.stopsAt (bucket, key))
      (cache.table.entry (homeSlot cache.capacity (bucket, key))) 0 cache.table.capacity with
  | none => rfl
  | some i =>
    change _ = (cache.probeEntry (makeIndex bucket key cache.capacity) i).content.map Prod.snd
    rw [CacheEntry.content]
    split_ifs with hvalid
    · exact if_pos hvalid
    · exact if_neg hvalid

/-- An invalidation erases from the table. -/
theorem manifestCacheInvalidate_spec (bucket key : CString) (hcap : 0 < cache.capacity)
    (hcounts : cache.Counts) :
    (manifestCacheInvalidate cache bucket key).table =
        cache.table.erase (homeSlot cache.capacity) (bucket, key) ∧
      (manifestCacheInvalidate cache bucket key).Counts := by
  rw [manifestCacheInvalidate, searchEnd_eq, ProbeTable.erase]
  cases findSlot (ProbeTable.stopsAt (bucket, key))
      (cache.table.entry (homeSlot cache.capacity (bucket, key))) 0 cache.table.capacity with
  | none => exact ⟨rfl, hcounts⟩
  | some i =>
    have hslot : cache.probe (makeIndex bucket key cache.capacity) i < cache.capacity :=
      Nat.mod_lt _ hcap
    by_cases hvalid : (cache.probeEntry (makeIndex bucket key cache.capacity) i).isValid = true
    · simp only [hvalid, if_true]
      refine ⟨table_clearSlot .., counts_clearSlot hslot hcounts ?_⟩
      exact fun hnone => content_eq_none_iff.mp hnone hvalid
    · simp only [hvalid]
      exact ⟨(ProbeTable.set_eq_self (content_eq_none_iff.mpr hvalid)).symm, hcounts⟩

/-- The eviction makes room in the table. -/
theorem evict_spec (hcap : 0 < cache.capacity) (hcounts : cache.Counts) :
    (evict cache).table = cache.table.makeRoom ∧ (evict cache).Counts := by
  have hfull : (cache.capacity : ℤ) ≤ cache.count ↔ ¬ cache.table.HasHole := by
    rw [ProbeTable.hasHole_iff_card_holes]
    rw [ManifestCache.Counts] at hcounts
    omega
  rw [evict]
  split_ifs with h
  · have hnone : findSlot (fun entry => !entry.isValid) cache.entries 0 cache.capacity = none := by
      refine (findSlot_invalid cache id).trans (findSlot_eq_none_iff.mpr fun p hp => ?_)
      rw [Option.isNone_eq_false_iff, Option.isSome_iff_ne_none]
      exact fun hp' => hfull.mp h ⟨p, hp, hp'⟩
    rw [hnone, Option.getD_none, ProbeTable.makeRoom_of_not_hasHole (hfull.mp h)]
    refine ⟨table_clearSlot cache 0, counts_clearSlot hcap hcounts fun h0 => ?_⟩
    exact hfull.mp h ⟨0, hcap, h0⟩
  · have hhole : cache.table.HasHole := not_not.mp (hfull.not.mp h)
    rw [ProbeTable.makeRoom_of_hasHole hhole]
    exact ⟨rfl, hcounts⟩

theorem capacity_evict (cache : ManifestCache) : (evict cache).capacity = cache.capacity := by
  rw [evict]
  split_ifs <;> rfl

/-- The last loop of the insert places in the table. -/
theorem placeEntry_spec (hcap : 0 < cache.capacity) (hcounts : cache.Counts)
    (bucket : CharArray metaMaxBucketLength) (key : CharArray metaMaxKeyLength)
    (manifest : ObjectManifest) :
    (placeEntry cache bucket.toCString key.toCString manifest).table =
        cache.table.place (homeSlot cache.capacity) (bucket.toCString, key.toCString) manifest ∧
      (placeEntry cache bucket.toCString key.toCString manifest).Counts := by
  have hfind : findSlot (fun entry => !entry.isValid)
      (cache.probeEntry (makeIndex bucket.toCString key.toCString cache.capacity)) 0
        cache.capacity =
      findSlot Option.isNone (cache.table.entry
        (homeSlot cache.capacity (bucket.toCString, key.toCString))) 0 cache.table.capacity :=
    findSlot_invalid cache (cache.probe (makeIndex bucket.toCString key.toCString cache.capacity))
  simp only [placeEntry, hfind, ProbeTable.place]
  cases h : findSlot Option.isNone (cache.table.entry
      (homeSlot cache.capacity (bucket.toCString, key.toCString))) 0 cache.table.capacity with
  | none => exact ⟨rfl, hcounts⟩
  | some i =>
    obtain ⟨-, hnone, -⟩ := findSlot_eq_some_iff.mp h
    refine ⟨table_fillSlot .., counts_fillSlot (Nat.mod_lt _ hcap) hcounts ?_ ..⟩
    exact Option.isNone_iff_eq_none.mp hnone

/-- Replacing the manifest of a slot that holds a pair of names. -/
theorem replaceManifest_spec {name : CString × CString} (hcounts : cache.Counts)
    (hholds : ProbeTable.holdsKey name (cache.table.slot slot) = true)
    (manifest : ObjectManifest) :
    (cache.setEntry slot { cache.entries slot with manifest := manifest }).table =
        cache.table.set slot (some (name, manifest)) ∧
      (cache.setEntry slot { cache.entries slot with manifest := manifest }).Counts := by
  have hnot : slot ∉ cache.table.holes := by
    intro hmem
    obtain ⟨v, hv⟩ := ProbeTable.holdsKey_eq_true_iff.mp hholds
    exact absurd ((ProbeTable.mem_holes.mp hmem).2.symm.trans hv) (by simp)
  obtain ⟨bucket, key⟩ := name
  have hentry : (cache.entries slot).isValid = true ∧
      ((cache.entries slot).bucket.toCString, (cache.entries slot).key.toCString) =
        (bucket, key) := by
    rwa [← decide_eq_true_iff (p := _ = (bucket, key)), ← hasNames_eq, ← Bool.and_eq_true,
      ← holdsKey_content]
  have htable : (cache.setEntry slot { cache.entries slot with manifest := manifest }).table =
      cache.table.set slot (some ((bucket, key), manifest)) := by
    rw [table_setEntry, CacheEntry.content, if_pos hentry.1, hentry.2]
  refine ⟨htable, ?_⟩
  rw [ManifestCache.Counts, htable, ProbeTable.holes_set_some, Finset.erase_eq_of_notMem hnot]
  exact hcounts

/-- An insert inserts into the table. -/
theorem manifestCacheInsert_spec (hcap : 0 < cache.capacity) (hcounts : cache.Counts)
    (bucket : CharArray metaMaxBucketLength) (key : CharArray metaMaxKeyLength)
    (manifest : ObjectManifest) :
    (manifestCacheInsert cache bucket.toCString key.toCString manifest).table =
        cache.table.insert (homeSlot cache.capacity) (bucket.toCString, key.toCString) manifest ∧
      (manifestCacheInsert cache bucket.toCString key.toCString manifest).Counts := by
  simp only [manifestCacheInsert, findSlot_hasNames, ProbeTable.insert]
  cases h : findSlot (ProbeTable.holdsKey (bucket.toCString, key.toCString))
      (cache.table.entry (homeSlot cache.capacity (bucket.toCString, key.toCString))) 0
      cache.table.capacity with
  | some i =>
    obtain ⟨-, hholds, -⟩ := findSlot_eq_some_iff.mp h
    exact replaceManifest_spec hcounts hholds manifest
  | none =>
    obtain ⟨htable, hcounts'⟩ := evict_spec hcap hcounts
    obtain ⟨hplace, hcounts''⟩ :=
      placeEntry_spec (capacity_evict cache ▸ hcap) hcounts' bucket key manifest
    rw [htable, capacity_evict] at hplace
    exact ⟨hplace, hcounts''⟩

theorem manifestCacheCreate_wellFormed {maxEntries : ℕ} (h : 1 ≤ maxEntries) :
    (manifestCacheCreate maxEntries).WellFormed where
  capacity_pos := h
  distinct := by
    intro p _ q _ e e' he
    exact absurd he (by simp [ManifestCache.table, manifestCacheCreate, CacheEntry.content,
      CacheEntry.zero])
  counts := by
    have hholes : (manifestCacheCreate maxEntries).table.holes = Finset.range maxEntries :=
      Finset.filter_true_of_mem fun _ _ => rfl
    rw [ManifestCache.Counts, hholes, Finset.card_range]
    exact Int.zero_add _

theorem capacity_manifestCacheInsert (h : cache.WellFormed)
    (bucket : CharArray metaMaxBucketLength) (key : CharArray metaMaxKeyLength)
    (manifest : ObjectManifest) :
    (manifestCacheInsert cache bucket.toCString key.toCString manifest).capacity =
      cache.capacity := by
  have htable := (manifestCacheInsert_spec h.capacity_pos h.counts bucket key manifest).1
  exact (congrArg ProbeTable.capacity htable).trans
    (ProbeTable.capacity_insert h.capacity_pos h.distinct _ _)

theorem capacity_manifestCacheInvalidate (h : cache.WellFormed) (bucket key : CString) :
    (manifestCacheInvalidate cache bucket key).capacity = cache.capacity := by
  have htable := (manifestCacheInvalidate_spec bucket key h.capacity_pos h.counts).1
  exact (congrArg ProbeTable.capacity htable).trans (ProbeTable.capacity_erase _ _)

theorem ManifestCache.WellFormed.insert (h : cache.WellFormed)
    (bucket : CharArray metaMaxBucketLength) (key : CharArray metaMaxKeyLength)
    (manifest : ObjectManifest) :
    (manifestCacheInsert cache bucket.toCString key.toCString manifest).WellFormed := by
  obtain ⟨htable, hcounts⟩ := manifestCacheInsert_spec h.capacity_pos h.counts bucket key manifest
  refine ⟨?_, htable ▸ h.distinct.insert h.capacity_pos _ _, hcounts⟩
  rw [capacity_manifestCacheInsert h]
  exact h.capacity_pos

theorem ManifestCache.WellFormed.invalidate (h : cache.WellFormed) (bucket key : CString) :
    (manifestCacheInvalidate cache bucket key).WellFormed := by
  obtain ⟨htable, hcounts⟩ := manifestCacheInvalidate_spec bucket key h.capacity_pos h.counts
  refine ⟨?_, htable ▸ h.distinct.erase _, hcounts⟩
  rw [capacity_manifestCacheInvalidate h]
  exact h.capacity_pos

/-- **The simulation.** Every call keeps the representation and answers as the table does. -/
theorem cacheMachine_simulates : cacheMachine.Simulates tableMachine ManifestCache.Represents where
  result_eq := by
    rintro cache _ op ⟨-, rfl⟩
    cases op with
    | insert bucket key manifest => rfl
    | lookup bucket key => exact manifestCacheLookup_eq ..
    | invalidate bucket key => rfl
  step_rel := by
    rintro cache _ op ⟨hwf, rfl⟩
    cases op with
    | insert bucket key manifest =>
      exact ⟨hwf.insert bucket key manifest,
        (manifestCacheInsert_spec hwf.capacity_pos hwf.counts bucket key manifest).1⟩
    | lookup bucket key => exact ⟨hwf, rfl⟩
    | invalidate bucket key =>
      exact ⟨hwf.invalidate .., (manifestCacheInvalidate_spec _ _ hwf.capacity_pos hwf.counts).1⟩

/-- Every cache that a run reaches is well formed. -/
theorem wellFormed_run {maxEntries : ℕ} (h : 1 ≤ maxEntries) (ops : List CacheOp) :
    (cacheMachine.run (manifestCacheCreate maxEntries) ops).WellFormed :=
  (cacheMachine_simulates.run_rel ⟨manifestCacheCreate_wellFormed h, rfl⟩ ops).1

/-- No call changes the capacity. -/
theorem capacity_run {maxEntries : ℕ} (h : 1 ≤ maxEntries) (ops : List CacheOp) :
    (cacheMachine.run (manifestCacheCreate maxEntries) ops).capacity = maxEntries := by
  refine (Machine.run_invariant (P := fun cache : ManifestCache => cache.WellFormed ∧
    cache.capacity = maxEntries) ?_ ⟨manifestCacheCreate_wellFormed h, rfl⟩).2
  rintro cache op - ⟨hwf, rfl⟩
  cases op with
  | insert bucket key manifest =>
    exact ⟨hwf.insert .., capacity_manifestCacheInsert hwf ..⟩
  | lookup bucket key => exact ⟨hwf, rfl⟩
  | invalidate bucket key =>
    exact ⟨hwf.invalidate .., capacity_manifestCacheInvalidate hwf ..⟩

end Simulation

end LightFS.Gateway
