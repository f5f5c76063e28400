import LightFS.Gateway.CacheChains
import LightFS.Library.Recency

/-!
# What a full cache evicts

The design calls the manifest cache an LRU cache. The code keeps no record of uses: an insert into
a full cache clears slot `0` and stores the new entry there. So the pair that leaves is the one used
least recently only when that one happens to be in slot `0`
(`manifestCacheInsert_evicts_oldest_iff`); repeated inserts of new pairs replace one another.

## Main definitions

* `usedNames` — the pairs that a run inserts, or looks up with success, in order.
* `InCache` — a lookup finds the pair.

## Main results

* `manifestCacheInsert_evicts_oldest_iff`.
-/

namespace LightFS.Gateway

open Library Meta

/-- The pair a call uses: the one it inserts, or the one it looks up with success. -/
def usedName (cache : ManifestCache) : CacheOp → Option (CString × CString)
  | .insert bucket key _ => some (bucket.toCString, key.toCString)
  | .lookup bucket key =>
    if (manifestCacheLookup cache bucket.toCString key.toCString).isSome then
      some (bucket.toCString, key.toCString)
    else none
  | .invalidate _ _ => none

/-- The pairs used in a run, in order. -/
def usedNames : ManifestCache → List CacheOp → List (CString × CString)
  | _, [] => []
  | cache, op :: ops =>
    (usedName cache op).toList ++ usedNames (cacheMachine.step cache op).1 ops

/-- A lookup finds the pair. -/
def InCache (cache : ManifestCache) (name : CString × CString) : Prop :=
  (manifestCacheLookup cache name.1 name.2).isSome

/-- The pair in a slot. -/
def CacheEntry.name (entry : CacheEntry) : CString × CString :=
  (entry.bucket.toCString, entry.key.toCString)

/-! ### Uses -/

theorem usedNames_append (cache : ManifestCache) (ops ops' : List CacheOp) :
    usedNames cache (ops ++ ops') =
      usedNames cache ops ++ usedNames (cacheMachine.run cache ops) ops' := by
  induction ops generalizing cache with
  | nil => rfl
  | cons op ops ih =>
    rw [List.cons_append, usedNames, ih, usedNames, List.append_assoc]
    rfl

theorem mem_usedNames_of_insert {bucket : CharArray metaMaxBucketLength}
    {key : CharArray metaMaxKeyLength} {manifest : ObjectManifest} {ops : List CacheOp}
    (h : .insert bucket key manifest ∈ ops) (cache : ManifestCache) :
    (bucket.toCString, key.toCString) ∈ usedNames cache ops := by
  obtain ⟨before, after, rfl⟩ := List.append_of_mem h
  rw [usedNames_append]
  exact List.mem_append_right _ List.mem_cons_self

/-- A pair in the cache was used. -/
theorem mem_usedNames_of_not_absent {maxEntries : ℕ} (hmax : 1 ≤ maxEntries)
    {ops : List CacheOp} {name : CString × CString}
    (h : ¬ (cacheMachine.run (manifestCacheCreate maxEntries) ops).table.Absent name) :
    name ∈ usedNames (manifestCacheCreate maxEntries) ops := by
  have hpresent := h
  simp only [ProbeTable.Absent, not_forall, not_not] at hpresent
  obtain ⟨p, -, v, hv⟩ := hpresent
  -- the names in a slot fit the arrays of an entry
  obtain ⟨bucket, key, rfl⟩ : ∃ (bucket : CharArray metaMaxBucketLength)
      (key : CharArray metaMaxKeyLength), name = (bucket.toCString, key.toCString) := by
    change CacheEntry.content _ = _ at hv
    rw [CacheEntry.content] at hv
    split_ifs at hv
    exact ⟨_, _, (congrArg Prod.fst (Option.some.inj hv)).symm⟩
  by_contra hunused
  refine h (absent_run (manifestCacheCreate_wellFormed hmax) ?_ ?_).2
  · intro q _ v' hv'
    cases hv'
  · rintro op hop manifest rfl
    exact hunused (mem_usedNames_of_insert hop _)

/-- The pair that the last call of a run inserts is in the cache. -/
theorem not_absent_of_last_insert {maxEntries : ℕ} (hmax : 1 ≤ maxEntries) (ops : List CacheOp)
    (bucket : CharArray metaMaxBucketLength) (key : CharArray metaMaxKeyLength)
    (manifest : ObjectManifest) :
    ¬ (cacheMachine.run (manifestCacheCreate maxEntries)
      (ops ++ [.insert bucket key manifest])).table.Absent (bucket.toCString, key.toCString) := by
  have hwf := wellFormed_run hmax ops
  have htable := (manifestCacheInsert_spec hwf.capacity_pos hwf.counts bucket key manifest).1
  rw [Machine.run_append]
  exact htable ▸ ProbeTable.not_absent_insert hwf.capacity_pos hwf.distinct _ _

/-! ### Full caches -/

section Full

variable {cache : ManifestCache} (hwf : cache.WellFormed)
include hwf

/-- A cache that counts as many entries as it has slots has no free slot. -/
theorem not_hasHole_of_full (hfull : manifestCacheSize cache = cache.capacity) :
    ¬ cache.table.HasHole := by
  rw [ProbeTable.hasHole_iff_card_holes]
  have hcounts : cache.count + cache.table.holes.card = cache.capacity := hwf.counts
  rw [manifestCacheSize] at hfull
  omega

theorem inCache_iff_of_full (hfull : ¬ cache.table.HasHole) (name : CString × CString) :
    InCache cache name ↔ ¬ cache.table.Absent name := by
  rw [InCache, manifestCacheLookup_eq]
  exact ProbeTable.lookup_isSome_iff_of_full hwf.capacity_pos hwf.distinct hfull

omit hwf in
/-- A slot of a full cache holds its pair. -/
theorem slot_of_full (hfull : ¬ cache.table.HasHole) {p : ℕ} (hp : p < cache.capacity) :
    cache.table.slot p = some ((cache.entries p).name, (cache.entries p).manifest) := by
  have hvalid : (cache.entries p).isValid = true := by
    by_contra hinvalid
    exact hfull ⟨p, hp, content_eq_none_iff.mpr hinvalid⟩
  exact if_pos hvalid

/-- The pair in a slot of a full cache is found. -/
theorem inCache_entries (hfull : ¬ cache.table.HasHole) {p : ℕ} (hp : p < cache.capacity) :
    InCache cache (cache.entries p).name :=
  (inCache_iff_of_full hwf hfull _).mpr fun habsent => habsent p hp _ (slot_of_full hfull hp)

/-- An insert into a full cache leaves it full. -/
theorem not_hasHole_insert (hfull : ¬ cache.table.HasHole)
    {bucket : CharArray metaMaxBucketLength} {key : CharArray metaMaxKeyLength}
    (hnew : cache.table.Absent (bucket.toCString, key.toCString)) (manifest : ObjectManifest) :
    ¬ (manifestCacheInsert cache bucket.toCString key.toCString manifest).table.HasHole := by
  rw [(manifestCacheInsert_spec hwf.capacity_pos hwf.counts bucket key manifest).1,
    ProbeTable.insert_of_full hwf.capacity_pos hfull hnew]
  rintro ⟨p, hp, hnone⟩
  rw [ProbeTable.slot_set] at hnone
  split_ifs at hnone
  exact hfull ⟨p, hp, hnone⟩

/-- The insert of a new pair into a full cache removes the pair of slot `0` and no other. -/
theorem inCache_insert_of_full (hfull : ¬ cache.table.HasHole)
    {bucket : CharArray metaMaxBucketLength} {key : CharArray metaMaxKeyLength}
    (hnew : cache.table.Absent (bucket.toCString, key.toCString)) (manifest : ObjectManifest)
    {name : CString × CString} (hname : InCache cache name) :
    ¬ InCache (manifestCacheInsert cache bucket.toCString key.toCString manifest) name ↔
      name = (cache.entries 0).name := by
  have htable := (manifestCacheInsert_spec hwf.capacity_pos hwf.counts bucket key manifest).1
  rw [inCache_iff_of_full (hwf.insert ..) (not_hasHole_insert hwf hfull hnew manifest), not_not,
    htable]
  exact ProbeTable.absent_insert_of_full_iff hwf.capacity_pos hwf.distinct hfull hnew manifest
    (slot_of_full hfull hwf.capacity_pos) ((inCache_iff_of_full hwf hfull name).mp hname)

/-- A pair that was just used and is the oldest in slot `0` would be the only one. -/
theorem ne_entries_zero_of_isOldest (hfull : ¬ cache.table.HasHole) (hone : 1 < cache.capacity)
    {uses : List (CString × CString)} {name : CString × CString}
    (holdest : IsOldest (uses ++ [name]) (InCache cache) (cache.entries 0).name) :
    name ≠ (cache.entries 0).name := by
  rintro rfl
  have hsame : (cache.entries 0).name = (cache.entries 1).name :=
    holdest.eq_newest (inCache_entries hwf hfull hone)
  exact absurd (hwf.distinct 0 hwf.capacity_pos 1 hone _ _
    (slot_of_full hfull hwf.capacity_pos) (slot_of_full hfull hone) hsame) Nat.zero_ne_one

end Full

/-- **Eviction.** In every full cache with at least two slots that a run reaches, the insert of a
pair that is not in the cache removes exactly the pair used least recently in the run, and never the
pair that the last call of the run inserted, if and only if the pair in slot `0` is the one used
least recently. -/
theorem manifestCacheInsert_evicts_oldest_iff (maxEntries : ℕ) (hmax : 2 ≤ maxEntries)
    (ops : List CacheOp) (bucket : CharArray metaMaxBucketLength)
    (key : CharArray metaMaxKeyLength) (manifest : ObjectManifest)
    (hfull : manifestCacheSize (cacheMachine.run (manifestCacheCreate maxEntries) ops) =
      maxEntries)
    (hnew : ¬ InCache (cacheMachine.run (manifestCacheCreate maxEntries) ops)
      (bucket.toCString, key.toCString)) :
    let cache := cacheMachine.run (manifestCacheCreate maxEntries) ops
    let after := manifestCacheInsert cache bucket.toCString key.toCString manifest
    let uses := usedNames (manifestCacheCreate maxEntries) ops
    ((∀ name, InCache cache name → (¬ InCache after name ↔ IsOldest uses (InCache cache) name)) ∧
      ∀ bucket' key' manifest', ops.getLast? = some (.insert bucket' key' manifest') →
        InCache after (bucket'.toCString, key'.toCString)) ↔
      IsOldest uses (InCache cache) (cache.entries 0).name := by
  intro cache after uses
  have hmax' : 1 ≤ maxEntries := Nat.le_of_succ_le hmax
  have hwf : cache.WellFormed := wellFormed_run hmax' ops
  have hcapacity : cache.capacity = maxEntries := capacity_run hmax' ops
  have hholes : ¬ cache.table.HasHole :=
    not_hasHole_of_full hwf (hfull.trans (congrArg Nat.cast hcapacity.symm))
  have habsent : cache.table.Absent (bucket.toCString, key.toCString) :=
    not_not.mp ((inCache_iff_of_full hwf hholes _).not.mp hnew)
  have hremoved {name : CString × CString} (hname : InCache cache name) :
      ¬ InCache after name ↔ name = (cache.entries 0).name :=
    inCache_insert_of_full hwf hholes habsent manifest hname
  have hused (name : CString × CString) (hname : InCache cache name) : name ∈ uses :=
    mem_usedNames_of_not_absent hmax' ((inCache_iff_of_full hwf hholes name).mp hname)
  have hfirst : InCache cache (cache.entries 0).name :=
    inCache_entries hwf hholes hwf.capacity_pos
  constructor
  · rintro ⟨hevicted, -⟩
    exact (hevicted _ hfirst).mp ((hremoved hfirst).mpr rfl)
  · intro holdest
    refine ⟨fun name hname => ?_, fun bucket' key' manifest' hlast => ?_⟩
    · rw [hremoved hname]
      constructor
      · rintro rfl
        exact holdest
      · intro hname'
        exact hname'.unique hused holdest
    · obtain ⟨before, rfl⟩ := List.getLast?_eq_some_iff.mp hlast
      have huses : uses = usedNames (manifestCacheCreate maxEntries) before ++
        [(bucket'.toCString, key'.toCString)] := usedNames_append ..
      by_contra hgone
      rw [hremoved ((inCache_iff_of_full hwf hholes _).mpr
        (not_absent_of_last_insert hmax' before bucket' key' manifest'))] at hgone
      rw [huses] at holdest
      exact ne_entries_zero_of_isOldest hwf hholes (hcapacity.symm ▸ hmax) holdest hgone

/-- A full cache of two slots, with the older entry in slot `0`. -/
theorem manifestCacheInsert_evicts_oldest_iff_two_slots :
    let ops : List CacheOp :=
      [.insert bucketB (byteKey 98) .zero, .insert bucketB (byteKey 99) .zero]
    let cache := cacheMachine.run (manifestCacheCreate 2) ops
    ¬ InCache (manifestCacheInsert cache bucketB.toCString (byteKey 100).toCString .zero)
      (cache.entries 0).name := by
  intro ops cache
  have hwf : cache.WellFormed := wellFormed_run (by decide) ops
  have hholes : ¬ cache.table.HasHole := not_hasHole_of_full hwf (by decide)
  have hfirst := inCache_entries hwf hholes hwf.capacity_pos
  -- of two uses the one of slot 0 was the first
  have holdest : IsOldest (usedNames (manifestCacheCreate 2) ops) (InCache cache)
      (cache.entries 0).name := by
    refine ⟨hfirst, fun name hname => ?_⟩
    have hused := mem_usedNames_of_not_absent (by decide)
      ((inCache_iff_of_full hwf hholes name).mp hname)
    have hage : age (usedNames (manifestCacheCreate 2) ops) (cache.entries 0).name = 1 := by decide
    rw [hage]
    exact Nat.le_of_lt_succ (age_lt_length hused)
  exact (((manifestCacheInsert_evicts_oldest_iff 2 (by decide) ops bucketB (byteKey 100) .zero
    (by decide) (by unfold InCache; decide)).mpr holdest).1 _ hfirst).mpr holdest

/-- Two entries, the older one in slot `1`: a third one replaces the one inserted just before. -/
theorem manifestCacheInsert_evicts_newest :
    let ops : List CacheOp :=
      [.insert bucketB (byteKey 99) .zero, .insert bucketB (byteKey 98) .zero]
    let cache := cacheMachine.run (manifestCacheCreate 2) ops
    let after := manifestCacheInsert cache bucketB.toCString (byteKey 100).toCString .zero
    manifestCacheSize cache = 2 ∧
      ¬ InCache cache (bucketB.toCString, (byteKey 100).toCString) ∧
      ¬ InCache after (bucketB.toCString, (byteKey 98).toCString) ∧
      InCache after (bucketB.toCString, (byteKey 99).toCString) := by
  unfold InCache
  decide

end LightFS.Gateway
