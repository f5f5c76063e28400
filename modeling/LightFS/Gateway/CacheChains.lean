import LightFS.Gateway.ManifestCache

/-!
# What the cache finds

Lookup and invalidate follow the probe chain of a pair of names and stop at the first invalid
slot; insert looks for the pair in all slots. Invalidating one of two colliding pairs leaves a
hole in the chain of the other, which lookup and invalidate then miss and insert still finds.

What is found is never outdated (`manifestCache_returns_last_insert`); the question is what is not
found. Both results on this are exact: what was just inserted is found if and only if the chain of
the pair was intact (`manifestCache_read_after_write_iff`), and what was just invalidated stays
away, whatever follows, under the same condition (`manifestCache_stays_deleted_iff`).

## Main definitions

* `ChainIntact`, `lastInsert`.
* `freshKey` — `2 ^ 31` different keys.

## Main results

* `manifestCache_read_after_write_iff`, `manifestCache_stays_deleted_iff`.
* `manifestCache_returns_last_insert`.
-/

namespace LightFS.Gateway

open Library Meta

/-- The chain of a pair of names is intact: every slot between the home slot of the pair and a
valid entry with these names is valid. -/
def ChainIntact (cache : ManifestCache) (bucket key : CString) : Prop :=
  let index := makeIndex bucket key cache.capacity
  ∀ i < cache.capacity, (cache.probeEntry index i).isValid →
    (cache.probeEntry index i).hasNames bucket key →
      ∀ j < i, (cache.probeEntry index j).isValid

theorem chainIntact_iff (cache : ManifestCache) (bucket key : CString) :
    ChainIntact cache bucket key ↔
      cache.table.Intact (homeSlot cache.capacity) (bucket, key) := by
  have hholds (i : ℕ) : (∃ v, cache.table.entry (homeSlot cache.capacity (bucket, key)) i =
      some ((bucket, key), v)) ↔
      (cache.probeEntry (makeIndex bucket key cache.capacity) i).isValid = true ∧
        (cache.probeEntry (makeIndex bucket key cache.capacity) i).hasNames bucket key = true := by
    rw [← ProbeTable.holdsKey_eq_true_iff, ← Bool.and_eq_true, ← holdsKey_content]
    rfl
  have hoccupied (j : ℕ) : cache.table.entry (homeSlot cache.capacity (bucket, key)) j ≠ none ↔
      (cache.probeEntry (makeIndex bucket key cache.capacity) j).isValid = true :=
    content_eq_none_iff.not_left
  constructor
  · intro h i hi v hv j hj
    obtain ⟨hvalid, hnames⟩ := (hholds i).mp ⟨v, hv⟩
    exact (hoccupied j).mpr (h i hi hvalid hnames j hj)
  · intro h i hi hvalid hnames j hj
    obtain ⟨v, hv⟩ := (hholds i).mpr ⟨hvalid, hnames⟩
    exact (hoccupied j).mp (h i hi v hv j hj)

/-! ### Read after write -/

/-- **Read after write.** In every cache that a run reaches, a lookup immediately after an insert
returns the inserted manifest if and only if the chain of the pair was intact before the
insert. -/
theorem manifestCache_read_after_write_iff (maxEntries : ℕ) (hmax : 1 ≤ maxEntries)
    (ops : List CacheOp) (bucket : CharArray metaMaxBucketLength)
    (key : CharArray metaMaxKeyLength) (manifest : ObjectManifest) :
    let cache := cacheMachine.run (manifestCacheCreate maxEntries) ops
    manifestCacheLookup (manifestCacheInsert cache bucket.toCString key.toCString manifest)
        bucket.toCString key.toCString = some manifest ↔
      ChainIntact cache bucket.toCString key.toCString := by
  intro cache
  have hwf : cache.WellFormed := wellFormed_run hmax ops
  rw [manifestCacheLookup_eq, capacity_manifestCacheInsert hwf, chainIntact_iff,
    (manifestCacheInsert_spec hwf.capacity_pos hwf.counts bucket key manifest).1]
  exact ProbeTable.lookup_insert_iff hwf.capacity_pos hwf.distinct _ _

/-- The bucket `b`. -/
def bucketB : CharArray metaMaxBucketLength := .strncpy (.ofMemory [98])

/-- A key of one byte. -/
def byteKey (c : UInt8) : CharArray metaMaxKeyLength := .strncpy (.ofMemory [c])

theorem manifestCache_read_after_write_iff_two_slots :
    manifestCacheLookup (manifestCacheInsert (cacheMachine.run (manifestCacheCreate 2)
      [.insert bucketB (byteKey 98) .zero]) bucketB.toCString (byteKey 100).toCString .zero)
      bucketB.toCString (byteKey 100).toCString = some .zero :=
  (manifestCache_read_after_write_iff 2 (by decide) [.insert bucketB (byteKey 98) .zero] bucketB
    (byteKey 100) .zero).mpr (by unfold ChainIntact; decide)

/-- Two keys with one home slot: after the first is invalidated, what is written for the second is
not found. -/
theorem manifestCache_write_not_found :
    manifestCacheLookup (manifestCacheInsert (cacheMachine.run (manifestCacheCreate 2)
      [.insert bucketB (byteKey 98) .zero, .insert bucketB (byteKey 100) .zero,
        .invalidate bucketB (byteKey 98)])
      bucketB.toCString (byteKey 100).toCString { ObjectManifest.zero with size := 5 })
      bucketB.toCString (byteKey 100).toCString = none := by
  decide

/-! ### The last insert -/

/-- The manifest a call inserts for a pair of names. -/
def insertedManifest (name : CString × CString) : CacheOp → Option ObjectManifest
  | .insert bucket key manifest =>
    if (bucket.toCString, key.toCString) = name then some manifest else none
  | _ => none

/-- The manifest last inserted for a pair of names in a run. -/
def lastInsert (name : CString × CString) (ops : List CacheOp) : Option ObjectManifest :=
  ops.reverse.findSome? (insertedManifest name)

theorem lastInsert_cons (name : CString × CString) (op : CacheOp) (ops : List CacheOp) :
    lastInsert name (op :: ops) = (lastInsert name ops).or (insertedManifest name op) := by
  rw [lastInsert, List.reverse_cons, List.findSome?_append, List.findSome?_singleton, lastInsert]

/-- A call keeps the valid entries at the manifests last inserted. -/
theorem agrees_step {cache : ManifestCache} {f : CString × CString → Option ObjectManifest}
    (hwf : cache.WellFormed) (h : cache.table.Agrees f) (op : CacheOp) :
    (cacheMachine.step cache op).1.table.Agrees fun name =>
      (insertedManifest name op).or (f name) := by
  cases op with
  | insert bucket key manifest =>
    have hinsert : (cache.table.insert (homeSlot cache.capacity)
        (bucket.toCString, key.toCString) manifest).Agrees _ :=
      ProbeTable.Agrees.insert hwf.capacity_pos hwf.distinct h _ _
    rw [← (manifestCacheInsert_spec hwf.capacity_pos hwf.counts bucket key manifest).1] at hinsert
    have hupdate : Function.update f (bucket.toCString, key.toCString) (some manifest) =
        fun name => (insertedManifest name (.insert bucket key manifest)).or (f name) := by
      funext name
      rw [insertedManifest, Function.update_apply]
      by_cases hname : (bucket.toCString, key.toCString) = name
      · rw [if_pos hname, if_pos hname.symm, Option.some_or]
      · rw [if_neg hname, if_neg (Ne.symm hname), Option.none_or]
    rwa [hupdate] at hinsert
  | lookup bucket key => exact h
  | invalidate bucket key =>
    have herase : (cache.table.erase (homeSlot cache.capacity)
        (bucket.toCString, key.toCString)).Agrees f := h.erase _
    rwa [← (manifestCacheInvalidate_spec _ _ hwf.capacity_pos hwf.counts).1] at herase

theorem agrees_run {cache : ManifestCache} {f : CString × CString → Option ObjectManifest}
    (hwf : cache.WellFormed) (h : cache.table.Agrees f) (ops : List CacheOp) :
    (cacheMachine.run cache ops).table.Agrees fun name => (lastInsert name ops).or (f name) := by
  induction ops generalizing cache f with
  | nil => exact h
  | cons op ops ih =>
    have hwf' : (cacheMachine.step cache op).1.WellFormed :=
      (cacheMachine_simulates.step_rel op ⟨hwf, rfl⟩).1
    simp only [lastInsert_cons, Option.or_assoc]
    exact ih hwf' (agrees_step hwf h op)

/-- The number of valid entries. -/
theorem count_eq_card_valid {cache : ManifestCache} (h : cache.Counts) :
    cache.count = ((Finset.range cache.capacity).filter fun p =>
      (cache.entries p).isValid = true).card := by
  have hholes : cache.table.holes =
      (Finset.range cache.capacity).filter fun p => ¬ (cache.entries p).isValid = true := by
    refine Finset.filter_congr fun p _ => ?_
    rw [Option.isNone_iff_eq_none]
    exact content_eq_none_iff
  have hcard := Finset.card_filter_add_card_filter_not (s := Finset.range cache.capacity)
    fun p => (cache.entries p).isValid = true
  rw [ManifestCache.Counts, hholes] at h
  rw [Finset.card_range] at hcard
  omega

/-- **The cache is never wrong.** In every cache that a run reaches, the counter is the number of
valid entries and at most the capacity, valid entries have distinct names, and a lookup that
succeeds returns the manifest last inserted for the pair in the run. -/
theorem manifestCache_returns_last_insert (maxEntries : ℕ) (hmax : 1 ≤ maxEntries)
    (ops : List CacheOp) :
    let cache := cacheMachine.run (manifestCacheCreate maxEntries) ops
    cache.capacity = maxEntries ∧
    cache.count = ((Finset.range cache.capacity).filter fun p =>
      (cache.entries p).isValid = true).card ∧
    cache.count ≤ cache.capacity ∧
    (∀ p < cache.capacity, ∀ q < cache.capacity,
      (cache.entries p).isValid = true → (cache.entries q).isValid = true →
      (cache.entries p).bucket = (cache.entries q).bucket →
      (cache.entries p).key = (cache.entries q).key → p = q) ∧
    ∀ bucket key manifest, manifestCacheLookup cache bucket key = some manifest →
      lastInsert (bucket, key) ops = some manifest := by
  intro cache
  have hwf : cache.WellFormed := wellFormed_run hmax ops
  refine ⟨capacity_run hmax ops, count_eq_card_valid hwf.counts, ?_, ?_, ?_⟩
  · have hcounts := hwf.counts
    rw [ManifestCache.Counts] at hcounts
    omega
  · intro p hp q hq hvalid hvalid' hbucket hkey
    have hslot {r : ℕ} (h : (cache.entries r).isValid = true) : cache.table.slot r = some
        (((cache.entries r).bucket.toCString, (cache.entries r).key.toCString),
          (cache.entries r).manifest) := if_pos h
    refine hwf.distinct p hp q hq _ _ (hslot hvalid) (hslot hvalid') ?_
    rw [hbucket, hkey]
  · intro bucket key manifest hlookup
    rw [manifestCacheLookup_eq] at hlookup
    have hagrees : cache.table.Agrees fun name => (lastInsert name ops).or none :=
      agrees_run (manifestCacheCreate_wellFormed hmax) (fun p _ k v hv => by cases hv) ops
    simpa using hagrees.lookup hwf.capacity_pos hwf.distinct hlookup

/-- Two keys with one home slot, the second one inserted again. -/
theorem manifestCache_returns_last_insert_two_slots :
    let ops : List CacheOp := [.insert bucketB (byteKey 98) .zero,
      .insert bucketB (byteKey 100) .zero,
      .insert bucketB (byteKey 100) { ObjectManifest.zero with size := 5 }]
    lastInsert (bucketB.toCString, (byteKey 100).toCString) ops =
      some { ObjectManifest.zero with size := 5 } := by
  intro ops
  exact (manifestCache_returns_last_insert 2 (by decide) ops).2.2.2.2 _ _ _ (by decide)

/-! ### Deleted objects -/

/-- `2 ^ 31` different keys: the bits of a number, written with the bytes `1` and `2`. -/
def freshKey (n : ℕ) : CharArray metaMaxKeyLength where
  bytes := (List.range 31).map fun i => if n.testBit i then 2 else 1
  nul_free := by
    simp only [List.mem_map, not_exists, not_and]
    intro i _
    split <;> decide
  length_le := by simp [metaMaxKeyLength]

theorem freshKey_injOn {m n : ℕ} (hm : m < 2 ^ 31) (hn : n < 2 ^ 31)
    (h : freshKey m = freshKey n) : m = n := by
  have hbytes : ∀ i < 31, (if m.testBit i then (2 : UInt8) else 1) =
      if n.testBit i then 2 else 1 := by
    have := congrArg (fun s : CharArray _ => s.bytes) h
    simpa [freshKey] using this
  refine Nat.eq_of_testBit_eq fun i => ?_
  rcases Nat.lt_or_ge i 31 with hi | hi
  · have hbit := hbytes i hi
    cases hmi : m.testBit i <;> cases hni : n.testBit i <;> simp_all
  · have hpow : 2 ^ 31 ≤ 2 ^ i := Nat.pow_le_pow_right (by decide) hi
    rw [Nat.testBit_lt_two_pow (hm.trans_le hpow), Nat.testBit_lt_two_pow (hn.trans_le hpow)]

/-- The names of the fresh keys. -/
def freshName (i : Fin (2 ^ 31)) : CString × CString :=
  (ObjectManifest.zero.bucket.toCString, (freshKey i).toCString)

theorem freshName_injective : Function.Injective freshName := by
  intro i j h
  have hkey : freshKey i = freshKey j := CharArray.toCString_injective (Prod.mk.inj h).2
  exact Fin.ext (freshKey_injOn i.isLt j.isLt hkey)

/-- The call that inserts a fresh key. -/
def insertFresh (i : Fin (2 ^ 31)) : CacheOp := .insert .empty (freshKey i) .zero

/-- Inserting fresh keys one after the other, on the table. -/
theorem table_run_insertFresh {cache : ManifestCache} (hwf : cache.WellFormed)
    (chosen : List (Fin (2 ^ 31))) :
    (cacheMachine.run cache (chosen.map insertFresh)).table =
      (chosen.map freshName).foldl (fun t k => t.insert (homeSlot cache.capacity) k .zero)
        cache.table ∧
    (cacheMachine.run cache (chosen.map insertFresh)).capacity = cache.capacity := by
  induction chosen generalizing cache with
  | nil => exact ⟨rfl, rfl⟩
  | cons i chosen ih =>
    have hstep := (manifestCacheInsert_spec hwf.capacity_pos hwf.counts .empty (freshKey i) .zero).1
    have hcap := capacity_manifestCacheInsert hwf .empty (freshKey i) .zero
    obtain ⟨htable, hcapacity⟩ := ih (hwf.insert .empty (freshKey i) .zero)
    rw [hcap, hstep] at htable
    exact ⟨htable, hcapacity.trans hcap⟩

/-- A pair that is absent stays absent until it is inserted. -/
theorem absent_run {cache : ManifestCache} (hwf : cache.WellFormed)
    {bucket : CharArray metaMaxBucketLength} {key : CharArray metaMaxKeyLength}
    (habsent : cache.table.Absent (bucket.toCString, key.toCString)) {rest : List CacheOp}
    (hrest : ∀ op ∈ rest, ∀ manifest, op ≠ .insert bucket key manifest) :
    (cacheMachine.run cache rest).WellFormed ∧
      (cacheMachine.run cache rest).table.Absent (bucket.toCString, key.toCString) := by
  refine Machine.run_invariant (P := fun cache : ManifestCache => cache.WellFormed ∧
    cache.table.Absent (bucket.toCString, key.toCString)) ?_ ⟨hwf, habsent⟩
  rintro cache op hop ⟨hwf, habsent⟩
  cases op with
  | insert bucket' key' manifest =>
    refine ⟨hwf.insert bucket' key' manifest, ?_⟩
    have hne : (bucket'.toCString, key'.toCString) ≠ (bucket.toCString, key.toCString) := by
      intro h
      obtain ⟨hbucket, hkey⟩ := Prod.mk.inj h
      refine hrest _ hop manifest ?_
      rw [CharArray.toCString_injective hbucket, CharArray.toCString_injective hkey]
    have htable := (manifestCacheInsert_spec hwf.capacity_pos hwf.counts bucket' key' manifest).1
    exact htable ▸ habsent.insert hwf.capacity_pos hwf.distinct hne manifest
  | lookup bucket' key' => exact ⟨hwf, habsent⟩
  | invalidate bucket' key' =>
    refine ⟨hwf.invalidate .., ?_⟩
    have htable := (manifestCacheInvalidate_spec bucket'.toCString key'.toCString
      hwf.capacity_pos hwf.counts).1
    exact htable ▸ habsent.erase _

/-- A pair behind a hole survives its invalidation, and is found once the holes are filled. -/
theorem exists_found_after_invalidate {cache : ManifestCache} (hwf : cache.WellFormed)
    (hcap : cache.capacity < 2 ^ 31) {bucket : CharArray metaMaxBucketLength}
    {key : CharArray metaMaxKeyLength}
    (h : ¬ ChainIntact cache bucket.toCString key.toCString) :
    ∃ rest : List CacheOp, (∀ op ∈ rest, ∀ manifest, op ≠ .insert bucket key manifest) ∧
      manifestCacheLookup (cacheMachine.run
        (manifestCacheInvalidate cache bucket.toCString key.toCString) rest)
        bucket.toCString key.toCString ≠ none := by
  rw [chainIntact_iff] at h
  have hwf' := hwf.invalidate bucket.toCString key.toCString
  have htable : (manifestCacheInvalidate cache bucket.toCString key.toCString).table =
      cache.table :=
    (manifestCacheInvalidate_spec _ _ hwf.capacity_pos hwf.counts).1.trans
      (ProbeTable.erase_eq_self_of_not_intact hwf.distinct h)
  have hcap' := capacity_manifestCacheInvalidate hwf bucket.toCString key.toCString
  obtain ⟨chosen, hchosen, hfullcap, hfulldistinct, hfull, hkept⟩ :=
    ProbeTable.exists_inserts_full (homeSlot cache.capacity) hwf.capacity_pos hwf.distinct hcap
      freshName_injective ObjectManifest.zero
  obtain ⟨hrun, hruncap⟩ := table_run_insertFresh hwf' chosen
  rw [htable, hcap'] at hrun
  rw [hcap'] at hruncap
  simp only [ProbeTable.Intact, not_forall] at h
  obtain ⟨i, hi, v, hv, -⟩ := h
  refine ⟨chosen.map insertFresh, ?_, ?_⟩
  · intro op hop manifest heq
    obtain ⟨j, hj, rfl⟩ := List.mem_map.mp hop
    obtain ⟨rfl, rfl, -⟩ := CacheOp.insert.inj heq
    exact hchosen j hj _ (ProbeTable.probe_lt hwf.capacity_pos) v hv
  · have hfound : manifestCacheLookup (cacheMachine.run
        (manifestCacheInvalidate cache bucket.toCString key.toCString) (chosen.map insertFresh))
        bucket.toCString key.toCString = some v := by
      rw [manifestCacheLookup_eq, hruncap, hrun, ProbeTable.lookup_eq_some_iff hfulldistinct]
      refine ⟨i, hfullcap.symm ▸ hi, ?_, fun j hj hnone => ?_⟩
      · rw [ProbeTable.entry, ProbeTable.probe, hfullcap]
        exact hkept _ (ProbeTable.probe_lt hwf.capacity_pos) _ hv
      · refine hfull ⟨_, ProbeTable.probe_lt (hfullcap.symm ▸ hwf.capacity_pos), hnone⟩
    rw [hfound]
    exact Option.some_ne_none v

/-- **Deleted objects.** In every cache that a run reaches, after a pair is invalidated every lookup
of it fails, in every continuation of the run that does not insert the pair again, if and only if
the chain of the pair was intact before the invalidation. -/
theorem manifestCache_stays_deleted_iff (maxEntries : ℕ) (hmax : 1 ≤ maxEntries)
    (hint : maxEntries < 2 ^ 31) (ops : List CacheOp) (bucket : CharArray metaMaxBucketLength)
    (key : CharArray metaMaxKeyLength) :
    let cache := cacheMachine.run (manifestCacheCreate maxEntries) ops
    (∀ rest : List CacheOp, (∀ op ∈ rest, ∀ manifest, op ≠ .insert bucket key manifest) →
      manifestCacheLookup (cacheMachine.run
        (manifestCacheInvalidate cache bucket.toCString key.toCString) rest)
        bucket.toCString key.toCString = none) ↔
      ChainIntact cache bucket.toCString key.toCString := by
  intro cache
  have hwf : cache.WellFormed := wellFormed_run hmax ops
  constructor
  · intro hdeleted
    by_contra hbroken
    obtain ⟨rest, hrest, hfound⟩ :=
      exists_found_after_invalidate hwf (capacity_run hmax ops ▸ hint) hbroken
    exact hfound (hdeleted rest hrest)
  · intro hintact rest hrest
    rw [chainIntact_iff] at hintact
    have habsent : (manifestCacheInvalidate cache bucket.toCString key.toCString).table.Absent
        (bucket.toCString, key.toCString) := by
      rw [(manifestCacheInvalidate_spec _ _ hwf.capacity_pos hwf.counts).1]
      exact ProbeTable.absent_erase_of_intact hwf.capacity_pos hwf.distinct hintact
    obtain ⟨hwf', habsent'⟩ := absent_run (hwf.invalidate _ _) habsent hrest
    rw [manifestCacheLookup_eq]
    exact ProbeTable.lookup_eq_none_of_absent hwf'.capacity_pos hwf'.distinct habsent'

theorem manifestCache_stays_deleted_iff_two_slots :
    manifestCacheLookup (cacheMachine.run (manifestCacheInvalidate
      (cacheMachine.run (manifestCacheCreate 2) [.insert bucketB (byteKey 98) .zero])
      bucketB.toCString (byteKey 98).toCString) [.insert bucketB (byteKey 100) .zero])
      bucketB.toCString (byteKey 98).toCString = none := by
  refine (manifestCache_stays_deleted_iff 2 (by decide) (by decide)
    [.insert bucketB (byteKey 98) .zero] bucketB (byteKey 98)).mpr
    (by unfold ChainIntact; decide) [.insert bucketB (byteKey 100) .zero] ?_
  intro op hop manifest heq
  obtain rfl := List.mem_singleton.mp hop
  exact absurd (CacheOp.insert.inj heq).2.1 (by decide)

/-- Two keys with one home slot: when the first is invalidated and then the second, the second
comes back as soon as a third key fills the hole. -/
theorem manifestCache_deleted_found :
    manifestCacheLookup (cacheMachine.run (manifestCacheInvalidate
      (cacheMachine.run (manifestCacheCreate 2)
        [.insert bucketB (byteKey 98) .zero, .insert bucketB (byteKey 100) .zero,
          .invalidate bucketB (byteKey 98)])
      bucketB.toCString (byteKey 100).toCString)
      [.insert bucketB (byteKey 102) .zero])
      bucketB.toCString (byteKey 100).toCString = some .zero := by
  decide

end LightFS.Gateway
